import Dataflow.Proofs.Arithmetic.Factorization
import Dataflow.Proofs.Monomial.Divisors
import Dataflow.Proofs.Text.Order

namespace Dataflow.Monomial

open Text

/-- A divisor as it comes from reading: a prime number, or an identifier. -/
inductive IsLegible : String → Prop
  | number {p : Nat} (prime : p.Prime) (writable : Numeral.isWritable p = true) : IsLegible p.repr
  | parameter {token : String} (isToken : IsToken token) (not_numeral : isNumeral token = false)
    (identifier : isIdentifier token.toList = true) : IsLegible token

/-- A monomial that has only divisors as they come from reading. -/
def Legible (m : Monomial) : Prop :=
  m.Over IsLegible

variable {a b m : Monomial}

theorem takesFactors_isLegible : Factors.TakesFactors IsLegible :=
  fun _ hn _ hp hwritable => .number (Arithmetic.prime_of_mem_primeFactors hn hp) hwritable

theorem legible_of_parse {text : String} (h : parse text = .ok m) : m.Legible := by
  refine over_of_parse takesFactors_isLegible ?_ h
  intro token htoken hnumeral hidentifier
  exact .parameter htoken hnumeral hidentifier

theorem IsLegible.exists_of_isNumeral {key : String} (h : IsLegible key)
    (hkey : isNumeral key = true) :
    ∃ p : Nat, p.Prime ∧ Numeral.isWritable p = true ∧ key = p.repr := by
  cases h with
  | number hp hwritable => exact ⟨_, hp, hwritable, rfl⟩
  | parameter _ hnumeral _ =>
    rw [hnumeral] at hkey
    cases hkey

private theorem Legible.entry (h : m.Legible) {entry : String × Nat}
    (hentry : entry ∈ m.factors.entries) : IsLegible entry.1 := by
  apply h
  rw [Factors.power_of_mem hentry]
  exact m.factors.pos_of_mem entry hentry

section Numbers

/-- The numbers among the divisors, each as often as it occurs. -/
def numbers (m : Monomial) : List Nat :=
  (m.factors.entries.filter fun entry => isNumeral entry.1).flatMap fun entry =>
    List.replicate entry.2 (Numeral.value entry.1)

private theorem foldlM_coefficient {entries : List (String × Nat)}
    (h : ∀ entry ∈ entries, IsLegible entry.1) (product : Nat) :
    entries.foldlM (fun product entry =>
      if isNumeral entry.1 then do
        let value ← Numeral.read entry.1
        return product * numericPower value entry.2
      else return product) product =
        (.ok (product * ((entries.filter fun entry => isNumeral entry.1).flatMap fun entry =>
          List.replicate entry.2 (Numeral.value entry.1)).prod) : Except Failure Nat) := by
  induction entries generalizing product with
  | nil => simp [pure, Except.pure]
  | cons entry entries ih =>
    obtain ⟨key, power⟩ := entry
    obtain ⟨hentry, hrest⟩ := List.forall_mem_cons.mp h
    rw [List.foldlM_cons]
    cases hnumeral : isNumeral key with
    | true =>
      obtain ⟨p, hp, hwritable, rfl⟩ := hentry.exists_of_isNumeral hnumeral
      have hpower : numericPower p power = p ^ power := if_neg (Nat.not_le.mpr hp.one_lt)
      simp only [List.filter_cons, hnumeral, if_true, List.flatMap_cons, List.prod_append,
        List.prod_replicate, Numeral.value_repr, ← Nat.mul_assoc, Numeral.read_repr hwritable,
        ← hpower]
      exact ih hrest _
    | false =>
      simp only [List.filter_cons, hnumeral, Bool.false_eq_true, if_false]
      exact ih hrest product

theorem coefficient_eq (h : m.Legible) : m.coefficient = .ok m.numbers.prod := by
  rw [coefficient, foldlM_coefficient fun _ => h.entry, Nat.one_mul, numbers]

theorem prime_of_mem_numbers (h : m.Legible) {p : Nat} (hp : p ∈ m.numbers) : p.Prime := by
  obtain ⟨entry, hentry, hp⟩ := List.mem_flatMap.mp hp
  obtain ⟨hentry, hnumeral⟩ := List.mem_filter.mp hentry
  obtain ⟨q, hq, -, hkey⟩ := (h.entry hentry).exists_of_isNumeral hnumeral
  rw [List.eq_of_mem_replicate hp, hkey, Numeral.value_repr]
  exact hq

end Numbers

section Spelling

/-- The parameters are the divisors that are no numbers. -/
theorem mem_parameters_iff {m : Monomial} {key : String} :
    key ∈ m.parameters ↔ 0 < m.power key ∧ isNumeral key = false := by
  rw [parameters, mem_sortTexts, List.mem_filter, ← Factors.power_pos_iff, Bool.not_eq_true']
  rfl

/-- The parameters in ascending order, each as often as it occurs. -/
def spelling (m : Monomial) : List String :=
  m.parameters.flatMap fun key => List.replicate (m.power key) key

/-- No parameter occurs more often than a list has room for. -/
def Spellable (m : Monomial) : Prop :=
  ∀ key ∈ m.parameters, m.power key < repetitionLimit

instance (m : Monomial) : Decidable m.Spellable :=
  inferInstanceAs (Decidable (∀ key ∈ m.parameters, m.power key < repetitionLimit))

theorem Spellable.strike (h : a.Spellable) (b : Monomial) : (a.strike b).Spellable := by
  intro key hkey
  rw [mem_parameters_iff, power_strike] at hkey
  have hlt := h key (mem_parameters_iff.mpr ⟨by omega, hkey.2⟩)
  rw [power_strike]
  omega

theorem symbols_eq (m : Monomial) :
    m.symbols = if m.Spellable then .ok m.spelling else .error .repetitionTooLong := by
  have hgroups : m.parameters.mapM (fun key => repeated (m.power key) key) =
      if m.Spellable then .ok (m.parameters.map fun key => List.replicate (m.power key) key)
      else .error .repetitionTooLong :=
    Except.mapM_ite m.parameters
  rw [symbols, hgroups]
  split
  · exact congrArg Except.ok List.flatMap_def.symm
  · rfl

/-- Under distinct keys, a key occurs as often as its entry says. -/
theorem count_flatMap_replicate {entries : List (String × Nat)}
    (hnodup : (entries.map Prod.fst).Nodup) (key : String) :
    (entries.flatMap fun entry => List.replicate entry.2 entry.1).count key =
      (entries.lookup key).getD 0 := by
  induction entries with
  | nil => rfl
  | cons entry entries ih =>
    rw [List.map_cons, List.nodup_cons] at hnodup
    rw [List.flatMap_cons, List.count_append, List.count_replicate, ih hnodup.2,
      List.lookup_cons]
    by_cases hkey : key = entry.1
    · subst hkey
      rw [Assoc.lookup_eq_none_of_notMem hnodup.1]
      simp
    · simp [beq_false_of_ne hkey, Ne.symm hkey]

private theorem map_repr_numbers (h : m.Legible) :
    m.numbers.map Nat.repr = (m.factors.entries.filter fun entry => isNumeral entry.1).flatMap
      fun entry => List.replicate entry.2 entry.1 := by
  rw [numbers, List.map_flatMap]
  apply List.flatMap_congr
  intro entry hentry
  obtain ⟨hentry, hnumeral⟩ := List.mem_filter.mp hentry
  obtain ⟨p, -, -, hkey⟩ := (h.entry hentry).exists_of_isNumeral hnumeral
  rw [List.map_replicate, hkey, Numeral.value_repr]

private theorem spelling_perm (m : Monomial) :
    m.spelling.Perm ((m.factors.entries.filter fun entry => !isNumeral entry.1).flatMap
      fun entry => List.replicate entry.2 entry.1) := by
  have hkeys : m.factors.keys.filter (fun key => !isNumeral key) =
      (m.factors.entries.filter fun entry => !isNumeral entry.1).map Prod.fst :=
    List.filter_map
  have hpowers : ((m.factors.entries.filter fun entry => !isNumeral entry.1).flatMap fun entry =>
      List.replicate (m.power entry.1) entry.1) =
        (m.factors.entries.filter fun entry => !isNumeral entry.1).flatMap fun entry =>
          List.replicate entry.2 entry.1 := by
    apply List.flatMap_congr
    intro entry hentry
    rw [power, Factors.power_of_mem (List.mem_filter.mp hentry).1]
  rw [← hpowers, ← List.flatMap_map Prod.fst fun key => List.replicate (m.power key) key, ← hkeys]
  exact (List.mergeSort_perm _ _).flatMap_right _

/-- The numbers and the parameters together are the divisors. -/
theorem count_numbers_spelling (h : m.Legible) (key : String) :
    (m.numbers.map Nat.repr).count key + m.spelling.count key = m.power key := by
  rw [map_repr_numbers h, m.spelling_perm.count_eq, ← List.count_append, ← List.flatMap_append]
  rw [((List.filter_append_perm _ _).flatMap_right _).count_eq,
    count_flatMap_replicate m.factors.nodup_keys]
  rfl

end Spelling

section Text

/-- The factors of the text that a monomial is written as. -/
def pieces (m : Monomial) : List String :=
  if m.numbers.prod = 1 ∧ m.spelling ≠ [] then m.spelling else m.numbers.prod.repr :: m.spelling

theorem isWritable_one : Numeral.isWritable 1 = true :=
  Numeral.isWritable_iff.mpr (Nat.one_lt_pow (by decide) (by decide))

/-- A monomial can be written if its parameters can be spelled out and its coefficient can be
written. -/
theorem render_eq (h : m.Legible) :
    m.render =
      if m.Spellable then
        if Numeral.isWritable m.numbers.prod then .ok ("*".intercalate m.pieces)
        else .error .numberTooLarge
      else .error .repetitionTooLong := by
  rw [render, symbols_eq, coefficient_eq h, pieces]
  by_cases hspellable : m.Spellable
  case neg =>
    rw [if_neg hspellable, if_neg hspellable]
    rfl
  rw [if_pos hspellable, if_pos hspellable]
  cases hspelling : m.spelling with
  | nil =>
    simp [bind, Except.bind, Numeral.write]
  | cons symbol symbols =>
    by_cases hone : m.numbers.prod = 1
    · simp [hone, isWritable_one, bind, Except.bind, pure, Except.pure]
    · by_cases hwritable : Numeral.isWritable m.numbers.prod = true
      · simp [hone, hwritable, bind, Except.bind, pure, Except.pure, Numeral.write]
      · simp [hone, hwritable, bind, Except.bind, Numeral.write]

theorem Legible.render_eq_error (h : m.Legible) {e : Failure}
    (he : m.render = .error e) :
    e = .numberTooLarge ∨ e = .repetitionTooLong ∧ ¬ m.Spellable := by
  rw [render_eq h] at he
  by_cases hspellable : m.Spellable
  · rw [if_pos hspellable] at he
    by_cases hwritable : Numeral.isWritable m.numbers.prod = true
    · rw [if_pos hwritable] at he
      cases he
    · rw [if_neg hwritable] at he
      exact .inl (Except.error.inj he).symm
  · rw [if_neg hspellable] at he
    exact .inr ⟨(Except.error.inj he).symm, hspellable⟩

/-- What was written is spelled out, and its coefficient can be written. -/
theorem render_eq_ok (h : m.Legible) {text : String} (hrender : m.render = .ok text) :
    m.Spellable ∧ Numeral.isWritable m.numbers.prod = true ∧
      text = "*".intercalate m.pieces := by
  rw [render_eq h] at hrender
  split at hrender
  · rename_i hspellable
    split at hrender
    · rename_i hwritable
      cases hrender
      exact ⟨hspellable, hwritable, rfl⟩
    · cases hrender
  · cases hrender

end Text

section Reading

variable {text : String}

private theorem isDigit_of_mem_repr {n : Nat} {c : Char} (hc : c ∈ n.repr.toList) :
    c.isDigit = true := by
  rw [Nat.toList_repr] at hc
  exact Nat.isDigit_of_mem_toDigits (by decide) (by decide) hc

private theorem isBlank_of_isDigit {c : Char} (h : c.isDigit = true) : isBlank c = false := by
  have hrange : 0x30 ≤ c.toNat ∧ c.toNat ≤ 0x39 := by
    simpa [Char.isDigit, UInt32.le_iff_toNat_le] using h
  simp [isBlank, CharClass.has, blanks]
  omega

theorem isToken_repr (n : Nat) : IsToken n.repr where
  ne_nil := by
    rw [Nat.toList_repr]
    exact Nat.toDigits_ne_nil
  no_star := fun hstar => absurd (isDigit_of_mem_repr hstar) (by decide)
  trim_eq := trim_eq_self_of_forall fun _ hc => isBlank_of_isDigit (isDigit_of_mem_repr hc)

theorem exists_foldlM_write {primes : List Nat}
    (h : ∀ p ∈ primes, Numeral.isWritable p = true) (start : Factors) :
    ∃ f, primes.foldlM (fun f p => do
        let key ← Numeral.write p
        return f.set key (f.power key + 1)) start = .ok f ∧
      ∀ key, f.power key = start.power key + (primes.map Nat.repr).count key := by
  induction primes generalizing start with
  | nil => exact ⟨start, rfl, by simp⟩
  | cons p primes ih =>
    obtain ⟨hp, hrest⟩ := List.forall_mem_cons.mp h
    obtain ⟨f, hf, hpower⟩ := ih hrest (start.set p.repr (start.power p.repr + 1))
    refine ⟨f, ?_, fun key => ?_⟩
    · rw [List.foldlM_cons, Numeral.write_eq_ok_iff.mpr ⟨hp, rfl⟩]
      exact hf
    · rw [hpower, Factors.power_set, List.map_cons, List.count_cons]
      by_cases hkey : key = p.repr
      · simp [hkey]
        omega
      · simp [hkey, Ne.symm hkey]

/-- A product of primes is read as these primes. -/
theorem exists_readToken_repr (text : String) {primes : List Nat} (hprimes : ∀ p ∈ primes, p.Prime)
    (hwritable : Numeral.isWritable primes.prod = true) :
    ∃ f, readToken text primes.prod.repr = .ok f ∧
      ∀ key, f.power key = (primes.map Nat.repr).count key := by
  have hperm := Arithmetic.primeFactors_perm hprimes
  have hpos : 0 < primes.prod := List.prod_pos fun p hp => (hprimes p hp).pos
  have hfactors : ∀ p ∈ Arithmetic.primeFactors primes.prod, Numeral.isWritable p = true :=
    fun p hp => Numeral.isWritable_of_le
      (Nat.le_of_dvd hpos (List.dvd_prod (hperm.mem_iff.mp hp))) hwritable
  obtain ⟨f, hf, hpower⟩ := exists_foldlM_write hfactors Factors.empty
  refine ⟨f, ?_, fun key => ?_⟩
  · have hnumber : Factors.ofNumber (primes.prod : Nat) = .ok f := by
      rw [Factors.ofNumber, if_neg (by omega)]
      exact hf
    rw [readToken, if_pos (isNumeral_repr _), Numeral.read_repr hwritable]
    simp only [bind, Except.bind, if_neg hpos.ne']
    exact hnumber
  · rw [hpower, Factors.power_empty, Nat.zero_add, (hperm.map Nat.repr).count_eq]

private theorem exists_foldlM_readToken (text : String) {tokens : List String}
    (h : ∀ token ∈ tokens, isNumeral token = false ∧ isIdentifier token.toList = true)
    (start : Factors) :
    ∃ f, tokens.foldlM (fun factors token => factors.union <$> readToken text token) start =
      .ok f ∧ ∀ key, f.power key = start.power key + tokens.count key := by
  induction tokens generalizing start with
  | nil => exact ⟨start, rfl, by simp⟩
  | cons token tokens ih =>
    obtain ⟨⟨hnumeral, hidentifier⟩, hrest⟩ := List.forall_mem_cons.mp h
    obtain ⟨f, hf, hpower⟩ := ih hrest (start.union (Factors.empty.set token 1))
    refine ⟨f, ?_, fun key => ?_⟩
    · rw [List.foldlM_cons, readToken, hnumeral, hidentifier]
      exact hf
    · rw [hpower, Factors.power_union, Factors.power_set, Factors.power_empty, List.count_cons]
      by_cases hkey : key = token
      · simp [hkey]
        omega
      · simp [hkey, Ne.symm hkey]

private theorem Legible.symbol (h : m.Legible) {symbol : String} (hsymbol : symbol ∈ m.spelling) :
    IsToken symbol ∧ isNumeral symbol = false ∧ isIdentifier symbol.toList = true := by
  obtain ⟨entry, hentry, hmem⟩ := List.mem_flatMap.mp (m.spelling_perm.mem_iff.mp hsymbol)
  obtain ⟨hentry, hnumeral⟩ := List.mem_filter.mp hentry
  rw [← List.eq_of_mem_replicate hmem, Bool.not_eq_true'] at hnumeral
  have hlegible := h.entry hentry
  rw [← List.eq_of_mem_replicate hmem] at hlegible
  cases hlegible with
  | number =>
    rw [isNumeral_repr] at hnumeral
    cases hnumeral
  | parameter htoken _ hidentifier => exact ⟨htoken, hnumeral, hidentifier⟩

private theorem tokens_pieces (h : m.Legible) : tokens ("*".intercalate m.pieces) = m.pieces := by
  apply tokens_intercalate
  unfold pieces
  split
  · exact fun piece hpiece => (h.symbol hpiece).1
  · exact List.forall_mem_cons.mpr ⟨isToken_repr _, fun piece hpiece => (h.symbol hpiece).1⟩

/-- A monomial that was written is read back. -/
theorem parse_render (h : m.Legible) (hrender : m.render = .ok text) :
    ∃ read, parse text = .ok read ∧ (read == m) = true := by
  obtain ⟨-, hwritable, rfl⟩ := render_eq_ok h hrender
  have hprimes (p : Nat) (hp : p ∈ m.numbers) := prime_of_mem_numbers h hp
  have hsymbols (symbol : String) (hsymbol : symbol ∈ m.spelling) := (h.symbol hsymbol).2
  suffices hfold : ∃ f, m.pieces.foldlM (fun factors token =>
      factors.union <$> readToken ("*".intercalate m.pieces) token) Factors.empty = .ok f ∧
        ∀ key, f.power key = (m.numbers.map Nat.repr).count key + m.spelling.count key by
    obtain ⟨f, hf, hpower⟩ := hfold
    refine ⟨⟨f⟩, by rw [parse, tokens_pieces h, hf]; rfl, beq_iff.mpr fun key => ?_⟩
    exact (hpower key).trans (count_numbers_spelling h key)
  generalize "*".intercalate m.pieces = text
  unfold pieces
  split
  · rename_i hone
    obtain ⟨f, hf, hpower⟩ := exists_foldlM_readToken text hsymbols Factors.empty
    have hnone : m.numbers = [] := List.eq_nil_iff_forall_not_mem.mpr fun p hp =>
      (hprimes p hp).not_dvd_one (hone.1 ▸ List.dvd_prod hp)
    exact ⟨f, hf, by simpa [hnone] using hpower⟩
  · obtain ⟨number, hnumber, hcount⟩ := exists_readToken_repr text hprimes hwritable
    obtain ⟨f, hf, hpower⟩ :=
      exists_foldlM_readToken text hsymbols (Factors.empty.union number)
    refine ⟨f, ?_, fun key => ?_⟩
    · rw [List.foldlM_cons, hnumber]
      exact hf
    · rw [hpower, Factors.power_union, Factors.power_empty, Nat.zero_add, hcount]

end Reading

section Congruence

theorem count_map_repr_numbers (h : m.Legible) (key : String) :
    (m.numbers.map Nat.repr).count key = if isNumeral key then m.power key else 0 := by
  have hsum := count_numbers_spelling h key
  cases hkey : isNumeral key with
  | true =>
    have hnone : m.spelling.count key = 0 := List.count_eq_zero.mpr fun hmem => by
      rw [(h.symbol hmem).2.1] at hkey
      cases hkey
    rw [if_pos rfl]
    omega
  | false =>
    refine List.count_eq_zero.mpr fun hmem => ?_
    obtain ⟨p, -, rfl⟩ := List.mem_map.mp hmem
    rw [isNumeral_repr] at hkey
    cases hkey

/-- Equal monomials have the same coefficient. -/
theorem prod_numbers_congr (ha : a.Legible) (hb : b.Legible) (h : (a == b) = true) :
    a.numbers.prod = b.numbers.prod := by
  have hperm : (a.numbers.map Nat.repr).Perm (b.numbers.map Nat.repr) := by
    refine List.perm_iff_count.mpr fun key => ?_
    rw [count_map_repr_numbers ha, count_map_repr_numbers hb, beq_iff.mp h]
  have hread (numbers : List Nat) : (numbers.map Nat.repr).map Numeral.value = numbers := by
    simp [Function.comp_def, Numeral.value_repr]
  have hvalues := hperm.map Numeral.value
  rw [hread, hread] at hvalues
  exact hvalues.prod_eq

private theorem parameters_congr (h : (a == b) = true) : a.parameters = b.parameters := by
  have hmem (key : String) : key ∈ a.factors.keys ↔ key ∈ b.factors.keys := by
    have hpower : a.factors.power key = b.factors.power key := beq_iff.mp h key
    rw [← Factors.power_pos_iff, ← Factors.power_pos_iff, hpower]
  have hperm : a.factors.keys.Perm b.factors.keys :=
    (List.perm_ext_iff_of_nodup a.factors.nodup_keys b.factors.nodup_keys).mpr hmem
  exact sortTexts_congr (hperm.filter _)

private theorem spelling_congr (h : (a == b) = true) : a.spelling = b.spelling := by
  rw [spelling, spelling, parameters_congr h]
  exact List.flatMap_congr fun key _ => by rw [beq_iff.mp h key]

private theorem spellable_congr (h : (a == b) = true) : a.Spellable ↔ b.Spellable := by
  rw [Spellable, Spellable, parameters_congr h]
  exact forall₂_congr fun key _ => by rw [beq_iff.mp h key]

/-- Equal monomials are written alike, in whatever order their divisors were added. -/
theorem render_congr (ha : a.Legible) (hb : b.Legible) (h : (a == b) = true) :
    a.render = b.render := by
  rw [render_eq ha, render_eq hb, pieces, pieces, prod_numbers_congr ha hb h, spelling_congr h]
  simp only [spellable_congr h]

/-- Of equal monomials both can be written or none. -/
theorem exists_render_congr (ha : a.Legible) (hb : b.Legible) (h : (a == b) = true)
    (hrender : ∃ text, a.render = .ok text) : ∃ text, b.render = .ok text :=
  render_congr ha hb h ▸ hrender

end Congruence

end Dataflow.Monomial
