import Dataflow.Proofs.Monomial.RoundTrip

namespace Dataflow.Monomial

open Text

/-- The monomials that can be made: read from a text, factored from a number, and combined. -/
inductive Derived : Monomial → Prop
  | parse {text : String} {m : Monomial} (h : parse text = .ok m) : Derived m
  | ofNumber {n : Int} {m : Monomial} (h : ofNumber n = .ok m) : Derived m
  | one : Derived one
  | mul {a b : Monomial} (ha : Derived a) (hb : Derived b) : Derived (a * b)
  | div {a b quotient : Monomial} (ha : Derived a) (hb : Derived b)
    (h : a.div b = .ok quotient) : Derived quotient
  | gcd {a b : Monomial} (ha : Derived a) (hb : Derived b) : Derived (a.gcd b)
  | lcm {a b : Monomial} (ha : Derived a) (hb : Derived b) : Derived (a.lcm b)
  | add {a b sum : Monomial} (ha : Derived a) (hb : Derived b) (h : a.add b = .ok sum) :
    Derived sum

variable {a b m : Monomial}

theorem legible_of_ofNumber {n : Int} (h : ofNumber n = .ok m) : m.Legible := by
  obtain ⟨f, hf, rfl⟩ := Except.map_eq_ok_iff.mp h
  exact Factors.over_of_ofNumber takesFactors_isLegible hf

/-- A sum is factored anew. -/
theorem add_eq_ok {sum : Monomial} (h : a.add b = .ok sum) : ∃ n : Nat, ofNumber n = .ok sum := by
  unfold add at h
  split at h
  · obtain ⟨left, -, h⟩ := Except.bind_eq_ok_iff.mp h
    obtain ⟨right, -, h⟩ := Except.bind_eq_ok_iff.mp h
    exact ⟨left + right, h⟩
  · obtain ⟨_, -, h⟩ := Except.bind_eq_ok_iff.mp h
    obtain ⟨_, -, h⟩ := Except.bind_eq_ok_iff.mp h
    cases h

/-- No operation brings in a divisor other than those that reading brings in. -/
theorem Derived.legible (h : m.Derived) : m.Legible := by
  induction h with
  | parse h => exact legible_of_parse h
  | ofNumber h => exact legible_of_ofNumber h
  | one => exact Over.one
  | mul _ _ iha ihb => exact Over.mul iha ihb
  | div _ _ h iha _ =>
    obtain ⟨-, rfl⟩ := div_eq_ok_iff.mp h
    exact Over.strike iha _
  | gcd _ _ iha _ => exact Over.gcd iha
  | lcm _ _ iha ihb => exact Over.lcm iha ihb
  | add _ _ h _ _ =>
    obtain ⟨n, hn⟩ := add_eq_ok h
    exact legible_of_ofNumber hn

/-- A monomial is short enough to be written when its coefficient has no more digits than can be
written and no parameter occurs more often than a list has room for. -/
structure IsShort (m : Monomial) : Prop where
  coefficient : ∃ n : Nat, m.coefficient = .ok n ∧ n.repr.length ≤ Numeral.maxDigits
  spellable : m.Spellable

theorem Legible.isShort_iff (h : m.Legible) :
    m.IsShort ↔ Numeral.isWritable m.numbers.prod = true ∧ m.Spellable := by
  rw [Numeral.isWritable_iff_length]
  constructor
  · rintro ⟨⟨_, hn, hlength⟩, hspellable⟩
    cases (coefficient_eq h).symm.trans hn
    exact ⟨hlength, hspellable⟩
  · rintro ⟨hlength, hspellable⟩
    exact ⟨⟨_, coefficient_eq h, hlength⟩, hspellable⟩

/-- A monomial can be written just when it is short. -/
theorem Legible.exists_render_iff (h : m.Legible) :
    (∃ text, m.render = .ok text) ↔ m.IsShort := by
  rw [h.isShort_iff]
  constructor
  · rintro ⟨_, htext⟩
    obtain ⟨hspellable, hwritable, -⟩ := render_eq_ok h htext
    exact ⟨hwritable, hspellable⟩
  · rintro ⟨hwritable, hspellable⟩
    rw [render_eq h, if_pos hspellable, if_pos hwritable]
    exact ⟨_, rfl⟩

/-- A short monomial can be written. -/
theorem Legible.exists_render (h : m.Legible) (hshort : m.IsShort) :
    ∃ text, m.render = .ok text :=
  h.exists_render_iff.mpr hshort

/-- The text of a short monomial that was made by `parse` and the operations is parsed to an equal
monomial, and two of them have the same text if and only if they are equal. -/
theorem text_determines (ha : a.Derived) (hb : b.Derived) (hashort : a.IsShort)
    (hbshort : b.IsShort) :
    ∃ s t, a.render = .ok s ∧ b.render = .ok t ∧
      (∃ read, parse s = .ok read ∧ (read == a) = true) ∧ (s = t ↔ (a == b) = true) := by
  obtain ⟨s, hs⟩ := ha.legible.exists_render hashort
  obtain ⟨t, ht⟩ := hb.legible.exists_render hbshort
  obtain ⟨read, hread, hreada⟩ := parse_render ha.legible hs
  refine ⟨s, t, hs, ht, ⟨read, hread, hreada⟩, ?_, ?_⟩
  · rintro rfl
    obtain ⟨read', hread', hreadb⟩ := parse_render hb.legible ht
    cases hread.symm.trans hread'
    exact beq_iff.mpr fun key => (beq_iff.mp hreada key).symm.trans (beq_iff.mp hreadb key)
  · intro heq
    have hrender := render_congr ha.legible hb.legible heq
    rw [hs, ht] at hrender
    exact Except.ok.inj hrender

theorem text_determines_reordered :
    ∃ a b, parse "x*12" = .ok a ∧ parse "6*x*2" = .ok b ∧ a.Derived ∧ b.Derived ∧ a.IsShort ∧
      b.IsShort ∧ ∃ s t, a.render = .ok s ∧ b.render = .ok t ∧
        (∃ read, parse s = .ok read ∧ (read == a) = true) ∧ (s = t ↔ (a == b) = true) := by
  have hfirst : (parse "x*12" >>= coefficient) = .ok 12 := by decide +kernel
  have hsecond : (parse "6*x*2" >>= coefficient) = .ok 12 := by decide +kernel
  obtain ⟨a, ha, hacoefficient⟩ := Except.bind_eq_ok_iff.mp hfirst
  obtain ⟨b, hb, hbcoefficient⟩ := Except.bind_eq_ok_iff.mp hsecond
  have hspellable : (parse "x*12").map (decide ·.Spellable) = .ok true ∧
      (parse "6*x*2").map (decide ·.Spellable) = .ok true := by
    decide +kernel
  rw [ha, hb] at hspellable
  have hashort : a.IsShort :=
    ⟨⟨12, hacoefficient, by decide⟩, of_decide_eq_true (Except.ok.inj hspellable.1)⟩
  have hbshort : b.IsShort :=
    ⟨⟨12, hbcoefficient, by decide⟩, of_decide_eq_true (Except.ok.inj hspellable.2)⟩
  exact ⟨a, b, ha, hb, .parse ha, .parse hb, hashort, hbshort,
    text_determines (.parse ha) (.parse hb) hashort hbshort⟩

/-- A monomial times itself, the product times itself, and so on, `n` times. -/
def squared (m : Monomial) : Nat → Monomial
  | 0 => m
  | n + 1 => m.squared n * m.squared n

private theorem power_squared (m : Monomial) (n : Nat) (key : String) :
    (m.squared n).power key = 2 ^ n * m.power key := by
  induction n with
  | zero => simp [squared]
  | succ n ih =>
    rw [squared, power_mul, ih, ← Nat.two_mul, ← Nat.mul_assoc, Nat.pow_succ']

private theorem Derived.squared (h : m.Derived) (n : Nat) : (m.squared n).Derived := by
  induction n with
  | zero => exact h
  | succ n ih => exact ih.mul ih

/-- Without numbers among the divisors the coefficient is one. -/
theorem coefficient_eq_one (h : m.Legible) (hnone : ∀ key, isNumeral key = true → m.power key = 0) :
    m.coefficient = .ok 1 := by
  have hnumbers : m.numbers = [] := by
    refine List.flatMap_eq_nil_iff.mpr fun entry hentry => ?_
    obtain ⟨hentry, hnumeral⟩ := List.mem_filter.mp hentry
    have hpower : m.factors.power entry.1 = 0 := hnone _ hnumeral
    rw [← Factors.power_of_mem hentry, hpower, List.replicate_zero]
  rw [coefficient_eq h, hnumbers, List.prod_nil]

/-- The power `x ^ (2 ^ 63)` has the coefficient one, and is made by 63 multiplications. It has no
text, since `x` would have to be repeated too often. -/
theorem text_may_be_missing :
    (∃ x, parse "x" = .ok x ∧ (x.squared 63).Derived ∧ (x.squared 63).coefficient = .ok 1 ∧
      (x.squared 63).render = .error .repetitionTooLong) ∧
    ¬ ∀ m : Monomial, m.Derived →
      (∃ n : Nat, m.coefficient = .ok n ∧ n.repr.length ≤ Numeral.maxDigits) →
        ∃ text read, m.render = .ok text ∧ parse text = .ok read ∧ (read == m) = true := by
  have hentries : (parse "x").map (·.factors.entries) = .ok [("x", 1)] := by decide +kernel
  obtain ⟨x, hx, hentries⟩ := Except.map_eq_ok_iff.mp hentries
  have hpower (key : String) : x.power key = if key = "x" then 1 else 0 := by
    rw [power, Factors.power, hentries, List.lookup_cons]
    by_cases hkey : key = "x"
    · simp [hkey]
    · simp [hkey, beq_false_of_ne hkey]
  have hderived : (x.squared 63).Derived := .squared (.parse hx) 63
  have hcoefficient : (x.squared 63).coefficient = .ok 1 := by
    refine coefficient_eq_one hderived.legible fun key hkey => ?_
    have hne : key ≠ "x" := fun heq => by
      rw [heq] at hkey
      exact absurd hkey (by decide)
    rw [power_squared, hpower, if_neg hne, Nat.mul_zero]
  have hspellable : ¬ (x.squared 63).Spellable := by
    have hmem : "x" ∈ (x.squared 63).parameters := by
      refine mem_parameters_iff.mpr ⟨?_, by decide⟩
      rw [power_squared, hpower, if_pos rfl]
      decide
    intro hspellable
    have hlt := hspellable "x" hmem
    rw [power_squared, hpower, if_pos rfl] at hlt
    exact absurd hlt (by decide)
  have hrender : (x.squared 63).render = .error .repetitionTooLong := by
    rw [render_eq hderived.legible, if_neg hspellable]
  refine ⟨⟨x, hx, hderived, hcoefficient, hrender⟩, fun hall => ?_⟩
  obtain ⟨_, _, htext, -⟩ := hall _ hderived ⟨1, hcoefficient, by decide⟩
  cases hrender.symm.trans htext

end Dataflow.Monomial
