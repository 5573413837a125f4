import Dataflow.Proofs.Except
import Dataflow.Proofs.Monomial.Tokens
import Dataflow.Proofs.Text.Numeral

namespace Dataflow

open Text

namespace Factors

variable {P : String → Prop} {f g : Factors}

/-- Every divisor is of the kind `P`. -/
def Over (P : String → Prop) (f : Factors) : Prop :=
  ∀ key, 0 < f.power key → P key

namespace Over

theorem empty : Factors.empty.Over P := by
  intro key hpower
  simp at hpower

private theorem anti (hf : f.Over P) (hle : ∀ key, g.power key ≤ f.power key) : g.Over P :=
  fun key hpower => hf key (Nat.lt_of_lt_of_le hpower (hle key))

private theorem union (hf : f.Over P) (hg : g.Over P) : (f.union g).Over P := by
  intro key hpower
  rw [power_union] at hpower
  by_cases h : 0 < f.power key
  · exact hf key h
  · exact hg key (by omega)

theorem set (hf : f.Over P) {key : String} (hkey : P key) (power : Nat) :
    (f.set key power).Over P := by
  intro k hpower
  rw [power_set] at hpower
  split at hpower
  · rename_i heq
    exact heq ▸ hkey
  · exact hf k hpower

end Over

/-- The kind `P` takes in the prime factors of positive numbers that can be written. -/
def TakesFactors (P : String → Prop) : Prop :=
  ∀ n : Nat, 0 < n → ∀ p ∈ Arithmetic.primeFactors n, Numeral.isWritable p = true → P p.repr

theorem over_of_ofNumber (hfactors : TakesFactors P) {n : Int} (h : ofNumber n = .ok f) :
    f.Over P := by
  unfold ofNumber at h
  split at h
  · cases h
  · rename_i hpos
    refine Except.foldlM_keeps (fun p hp f f' hf hstep => ?_) Over.empty h
    obtain ⟨key, hwrite, hset⟩ := Except.bind_eq_ok_iff.mp hstep
    cases hset
    obtain ⟨hwritable, rfl⟩ := Numeral.write_eq_ok_iff.mp hwrite
    exact hf.set (hfactors _ (by omega) p hp hwritable) _

/-- Nothing is lacking where every divisor occurs often enough. -/
theorem lacking?_eq_none_iff : f.lacking? g = none ↔ ∀ key, g.power key ≤ f.power key := by
  rw [lacking?, List.find?_eq_none]
  constructor
  · intro h key
    by_cases hkey : key ∈ g.keys
    · obtain ⟨entry, hentry, rfl⟩ := List.mem_map.mp hkey
      rw [power_of_mem hentry]
      simpa [Nat.blt_eq] using h entry hentry
    · rw [power_eq_zero_of_notMem hkey]
      exact Nat.zero_le _
  · intro h entry hentry
    have hle := h entry.1
    rw [power_of_mem hentry] at hle
    simpa [Nat.blt_eq] using hle

end Factors

namespace Monomial

variable {P : String → Prop} {a b : Monomial}

/-- Every divisor is of the kind `P`. -/
def Over (P : String → Prop) (m : Monomial) : Prop :=
  m.factors.Over P

namespace Over

theorem one : Monomial.one.Over P :=
  Factors.Over.empty

theorem anti (ha : a.Over P) (hle : ∀ key, b.power key ≤ a.power key) : b.Over P :=
  Factors.Over.anti ha hle

theorem mul (ha : a.Over P) (hb : b.Over P) : (a * b).Over P :=
  Factors.Over.union ha hb

theorem strike (ha : a.Over P) (b : Monomial) : (a.strike b).Over P :=
  ha.anti fun key => by rw [power_strike]; omega

theorem gcd (ha : a.Over P) : (a.gcd b).Over P :=
  ha.anti fun key => by rw [power_gcd]; omega

theorem lcm (ha : a.Over P) (hb : b.Over P) : (a.lcm b).Over P :=
  (ha.strike _).mul hb

end Over

/-- A quotient is exact, or there is none. -/
theorem div_eq_ok_iff {quotient : Monomial} :
    a.div b = .ok quotient ↔ (∀ key, b.power key ≤ a.power key) ∧ quotient = a.strike b := by
  unfold div
  cases hlacking : a.factors.lacking? b.factors with
  | none =>
    have hle := Factors.lacking?_eq_none_iff.mp hlacking
    constructor
    · intro h
      cases h
      exact ⟨hle, rfl⟩
    · rintro ⟨-, rfl⟩
      rfl
  | some missing =>
    constructor
    · intro h
      dsimp only at h
      split at h
      · obtain ⟨_, -, h⟩ := Except.bind_eq_ok_iff.mp h
        obtain ⟨_, -, h⟩ := Except.bind_eq_ok_iff.mp h
        cases h
      · cases h
    · rintro ⟨hle, -⟩
      rw [Factors.lacking?_eq_none_iff.mpr hle] at hlacking
      cases hlacking

/-- The least common multiple is made by an exact division. -/
theorem lcm_exact (a b : Monomial) : ∃ rest, a.div (a.gcd b) = .ok rest ∧ a.lcm b = rest * b :=
  ⟨a.strike (a.gcd b), div_eq_ok_iff.mpr ⟨fun key => by rw [power_gcd]; omega, rfl⟩, rfl⟩

/-- The kind `P` takes in the parameters that a text can name. -/
def TakesParameters (P : String → Prop) : Prop :=
  ∀ token, IsToken token → isNumeral token = false → isIdentifier token.toList = true → P token

private theorem over_of_readToken (hfactors : Factors.TakesFactors P)
    (hparameters : TakesParameters P) {text token : String} {f : Factors} (htoken : IsToken token)
    (h : readToken text token = .ok f) : f.Over P := by
  unfold readToken at h
  split at h
  · obtain ⟨value, -, h⟩ := Except.bind_eq_ok_iff.mp h
    split at h
    · cases h
    · exact Factors.over_of_ofNumber hfactors h
  · rename_i hnumeral
    split at h
    · rename_i hidentifier
      cases h
      have hkey := hparameters token htoken (by simpa using hnumeral) hidentifier
      exact Factors.Over.empty.set hkey 1
    · cases h

theorem over_of_parse (hfactors : Factors.TakesFactors P) (hparameters : TakesParameters P)
    {text : String} {m : Monomial} (h : parse text = .ok m) : m.Over P := by
  obtain ⟨f, hf, rfl⟩ := Except.map_eq_ok_iff.mp h
  refine Except.foldlM_keeps (P := Factors.Over P) (fun token htoken f f' hf hstep => ?_)
    Factors.Over.empty hf
  obtain ⟨g, hg, rfl⟩ := Except.map_eq_ok_iff.mp hstep
  exact hf.union (over_of_readToken hfactors hparameters (isToken_of_mem_tokens htoken) hg)

end Monomial

end Dataflow
