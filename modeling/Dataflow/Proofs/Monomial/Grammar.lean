import Dataflow.Proofs.Monomial.Coefficient

namespace Dataflow

namespace Text

private theorem digitValue?_lt {c : Char} {d : Nat} (h : digitValue? c = some d) : d < 10 := by
  obtain ⟨z, hz, rfl⟩ := Option.map_eq_some_iff.mp h
  have hspan := List.find?_some hz
  simp only [Bool.and_eq_true, decide_eq_true_eq] at hspan
  omega

/-- The value of a numeral is bounded by its number of digits. -/
theorem Numeral.value_lt (s : String) : value s < 10 ^ s.length := by
  have hfold : ∀ (cs : List Char) (start : Nat),
      cs.foldl (fun n c => 10 * n + (digitValue? c).getD 0) start < (start + 1) * 10 ^ cs.length := by
    intro cs
    induction cs with
    | nil => simp
    | cons c cs ih =>
      intro start
      have hdigit : (digitValue? c).getD 0 < 10 := by
        cases h : digitValue? c with
        | none => decide
        | some d => exact digitValue?_lt h
      calc (c :: cs).foldl (fun n c => 10 * n + (digitValue? c).getD 0) start
        _ < (10 * start + (digitValue? c).getD 0 + 1) * 10 ^ cs.length := ih _
        _ ≤ (start + 1) * 10 * 10 ^ cs.length := Nat.mul_le_mul_right _ (by omega)
        _ = (start + 1) * 10 ^ (c :: cs).length := by rw [List.length_cons, pow_succ]; ring
  have hbound := hfold s.toList 0
  rwa [Nat.zero_add, Nat.one_mul, String.length_toList] at hbound

/-- The digits of all scripts lie apart from the characters that identifiers start with. -/
theorem zeros_apart : ∀ z ∈ zeros, ∀ span ∈ identifierStarts,
    span.2 < z ∨ z + 9 < span.1 := by
  -- Every pair is compared, which as a Boolean is quick to evaluate.
  have hall : (zeros.all fun z => identifierStarts.all fun span =>
      Nat.ble (span.2 + 1) z || Nat.ble (z + 10) span.1) = true := by
    decide +kernel
  intro z hz span hspan
  have hpair := List.all_eq_true.mp (List.all_eq_true.mp hall z hz) span hspan
  rwa [Bool.or_eq_true, Nat.ble_eq, Nat.ble_eq] at hpair

private theorem startsIdentifier_of_digit {c : Char} (h : (digitValue? c).isSome = true) :
    startsIdentifier c = false := by
  rw [digitValue?, Option.isSome_map, List.find?_isSome] at h
  obtain ⟨z, hz, hdigit⟩ := h
  refine Bool.eq_false_iff.mpr fun hstarts => ?_
  obtain ⟨span, hspan, hletter⟩ := List.any_eq_true.mp hstarts
  have hapart := zeros_apart z hz span hspan
  simp only [Bool.and_eq_true, decide_eq_true_eq] at hdigit hletter
  omega

/-- A numeral is no identifier. -/
theorem isIdentifier_of_isNumeral {token : String} (h : isNumeral token = true) :
    isIdentifier token.toList = false := by
  rw [isNumeral, Bool.and_eq_true, List.all_eq_true] at h
  cases hcs : token.toList with
  | nil => rfl
  | cons c cs =>
    have hdigit := h.2 c (hcs ▸ List.mem_cons_self)
    rw [isIdentifier, startsIdentifier_of_digit hdigit, Bool.false_and]

end Text

namespace Monomial

open Text

/-- A numeral that is not too long and not zero, or an identifier. -/
def IsFactor (token : String) : Prop :=
  (isNumeral token = true ∧ token.length ≤ Numeral.maxDigits ∧ Numeral.value token ≠ 0) ∨
    isIdentifier token.toList = true

/-- What is wrong with a token that is no factor. -/
def fault (text token : String) : Failure :=
  if isNumeral token then
    if token.length ≤ Numeral.maxDigits then .zeroRate text token
    else .numeralTooLong token.length
  else .malformedRate text token

variable {text token : String}

private theorem readToken_of_not_isFactor (h : ¬ IsFactor token) :
    readToken text token = .error (fault text token) := by
  rw [IsFactor, not_or] at h
  rw [readToken, fault]
  cases hnumeral : isNumeral token with
  | false =>
    rw [if_neg Bool.false_ne_true, if_neg h.2, if_neg Bool.false_ne_true]
    rfl
  | true =>
    rw [if_pos rfl, if_pos rfl, Numeral.read]
    split
    · rename_i hlength
      have hzero : Numeral.value token = 0 := by
        by_contra hne
        exact h.1 ⟨hnumeral, hlength, hne⟩
      rw [hzero]
      rfl
    · rfl

/-- The product of a list of tokens: of the numerals, and of each parameter as often as it
occurs. -/
structure StandsFor (tokens : List String) (m : Monomial) : Prop where
  legible : m.Legible
  prod_numbers : m.numbers.prod = ((tokens.filter isNumeral).map Numeral.value).prod
  power : ∀ key, isNumeral key = false → m.power key = tokens.count key

namespace StandsFor

variable {tokens tokens' : List String} {a b m : Monomial}

private theorem nil : StandsFor [] one where
  legible := .one
  prod_numbers := prod_numbers_of_isOne rfl
  power := fun _ _ => rfl

private theorem append (ha : StandsFor tokens a) (hb : StandsFor tokens' b) :
    StandsFor (tokens ++ tokens') (a * b) where
  legible := ha.legible.mul hb.legible
  prod_numbers := by
    rw [prod_numbers_mul ha.legible hb.legible, ha.prod_numbers, hb.prod_numbers,
      List.filter_append, List.map_append, List.prod_append]
  power := fun key hkey => by
    rw [power_mul, ha.power key hkey, hb.power key hkey, List.count_append]

private theorem perm (ha : StandsFor tokens a) (h : tokens.Perm tokens') : StandsFor tokens' a where
  legible := ha.legible
  prod_numbers := ha.prod_numbers.trans ((h.filter _).map _).prod_eq
  power := fun key hkey => (ha.power key hkey).trans (h.count_eq key)

/-- A list of tokens has one product. -/
theorem beq (ha : StandsFor tokens a) (hb : StandsFor tokens b) : (a == b) = true :=
  (beq_iff_eq_prod ha.legible hb.legible).mpr
    ⟨ha.prod_numbers.trans hb.prod_numbers.symm, fun key hkey =>
      (ha.power key hkey).trans (hb.power key hkey).symm⟩

private theorem coefficient (h : StandsFor tokens m) :
    m.coefficient = .ok ((tokens.filter isNumeral).map Numeral.value).prod := by
  rw [coefficient_eq h.legible, h.prod_numbers]

private theorem numeral (hnumeral : isNumeral token = true) (hlegible : m.Legible)
    (hconstant : m.isConstant = true) (hprod : m.numbers.prod = Numeral.value token) :
    StandsFor [token] m where
  legible := hlegible
  prod_numbers := by simp [hnumeral, hprod]
  power := by
    intro key hkey
    have hne : key ≠ token := by
      rintro rfl
      rw [hnumeral] at hkey
      cases hkey
    rw [isConstant_iff.mp hconstant key hkey, List.count_singleton, if_neg fun h => hne (eq_of_beq h).symm]

private theorem identifier (htoken : IsToken token) (hnumeral : isNumeral token = false)
    (hidentifier : isIdentifier token.toList = true) :
    StandsFor [token] ⟨Factors.empty.set token 1⟩ where
  legible := Factors.Over.empty.set (.parameter htoken hnumeral hidentifier) 1
  prod_numbers := by
    have hentries : (Factors.empty.set token 1).entries = [(token, 1)] := rfl
    simp [numbers, hentries, hnumeral]
  power := fun key _ => by
    rw [Monomial.power, Factors.power_set, Factors.power_empty, List.count_singleton]
    by_cases hkey : key = token
    · simp [hkey]
    · simp [hkey, Ne.symm hkey]

end StandsFor

private theorem exists_readToken (text : String) (htoken : IsToken token) (h : IsFactor token) :
    ∃ f, readToken text token = .ok f ∧ StandsFor [token] ⟨f⟩ := by
  cases hnumeral : isNumeral token with
  | false =>
    have hidentifier : isIdentifier token.toList = true := by simpa [IsFactor, hnumeral] using h
    refine ⟨_, ?_, .identifier htoken hnumeral hidentifier⟩
    rw [readToken, hnumeral, if_neg Bool.false_ne_true, if_pos hidentifier]
    rfl
  | true =>
    have hreadable : token.length ≤ Numeral.maxDigits ∧ Numeral.value token ≠ 0 := by
      simpa [IsFactor, hnumeral, isIdentifier_of_isNumeral hnumeral] using h
    obtain ⟨hlength, hne⟩ := hreadable
    have hpos := Nat.pos_of_ne_zero hne
    have hwritable : Numeral.isWritable (Numeral.value token) = true :=
      Numeral.isWritable_iff.mpr
        (Nat.lt_of_lt_of_le (Numeral.value_lt token) (Nat.pow_le_pow_right (by decide) hlength))
    obtain ⟨m, hm, hconstant, hprod⟩ := exists_ofNumber hpos fun p _ hdvd =>
      Numeral.isWritable_of_le (Nat.le_of_dvd hpos hdvd) hwritable
    obtain ⟨f, hf, rfl⟩ := Except.map_eq_ok_iff.mp hm
    refine ⟨f, ?_, .numeral hnumeral (legible_of_ofNumber hm) hconstant hprod⟩
    rw [readToken, hnumeral, if_pos rfl, Numeral.read, if_pos hlength]
    simp only [bind, Except.bind, if_neg hne]
    exact hf

/-- Factors are read one after another, and multiplied. -/
theorem exists_foldlM_readFactors (text : String) {tokens done : List String} {start : Monomial}
    (hstart : StandsFor done start) (htokens : ∀ token ∈ tokens, IsToken token)
    (h : ∀ token ∈ tokens, IsFactor token) :
    ∃ m : Monomial, tokens.foldlM (fun factors token => factors.union <$> readToken text token)
      start.factors = .ok m.factors ∧ StandsFor (done ++ tokens) m := by
  induction tokens generalizing done start with
  | nil => exact ⟨start, rfl, by rwa [List.append_nil]⟩
  | cons token tokens ih =>
    obtain ⟨htoken, htokens⟩ := List.forall_mem_cons.mp htokens
    obtain ⟨hfactor, hfactors⟩ := List.forall_mem_cons.mp h
    obtain ⟨f, hf, hstands⟩ := exists_readToken text htoken hfactor
    obtain ⟨m, hm, hresult⟩ := ih (hstart.append hstands) htokens hfactors
    refine ⟨m, ?_, by rwa [List.append_assoc] at hresult⟩
    rw [List.foldlM_cons, hf]
    exact hm

private theorem parse_of_factors (h : ∀ token ∈ tokens text, IsFactor token) :
    ∃ m, parse text = .ok m ∧ StandsFor (tokens text) m := by
  obtain ⟨m, hm, hstands⟩ := exists_foldlM_readFactors text .nil
    (fun token => isToken_of_mem_tokens) h
  exact ⟨m, by rw [parse]; exact congrArg (Monomial.mk <$> ·) hm, hstands⟩

/-- The first token that is no factor is the one that a text is refused for. -/
theorem parse_of_fault {before after : List String} (htokens : tokens text = before ++ token :: after)
    (hbefore : ∀ earlier ∈ before, IsFactor earlier) (h : ¬ IsFactor token) :
    parse text = .error (fault text token) := by
  have hread : ∀ earlier ∈ before, IsToken earlier := fun earlier hearlier =>
    isToken_of_mem_tokens (htokens ▸ List.mem_append_left _ hearlier)
  obtain ⟨m, hm, -⟩ := exists_foldlM_readFactors text .nil hread hbefore
  have hdone : before.foldlM (fun factors token => factors.union <$> readToken text token)
      Factors.empty = .ok m.factors := hm
  rw [parse, htokens, List.foldlM_append, hdone]
  show Monomial.mk <$> (token :: after).foldlM (fun factors token =>
    factors.union <$> readToken text token) m.factors = (.error _ : Except Failure Monomial)
  rw [List.foldlM_cons, readToken_of_not_isFactor h]
  rfl

private theorem exists_first_fault {tokens : List String} (h : ¬ ∀ token ∈ tokens, IsFactor token) :
    ∃ before token after, tokens = before ++ token :: after ∧
      (∀ earlier ∈ before, IsFactor earlier) ∧ ¬ IsFactor token := by
  induction tokens with
  | nil => simp at h
  | cons token tokens ih =>
    by_cases hfactor : IsFactor token
    · have hrest : ¬ ∀ token ∈ tokens, IsFactor token := fun hall =>
        h (List.forall_mem_cons.mpr ⟨hfactor, hall⟩)
      obtain ⟨before, first, after, rfl, hbefore, hfault⟩ := ih hrest
      exact ⟨token :: before, first, after, rfl, List.forall_mem_cons.mpr ⟨hfactor, hbefore⟩, hfault⟩
    · exact ⟨[], token, tokens, rfl, by simp, hfactor⟩

private theorem exists_parse_iff :
    (∃ m, parse text = .ok m) ↔ ∀ token ∈ tokens text, IsFactor token := by
  constructor
  · rintro ⟨m, hm⟩
    by_contra hnot
    obtain ⟨before, token, after, htokens, hbefore, hfault⟩ := exists_first_fault hnot
    rw [parse_of_fault htokens hbefore hfault] at hm
    cases hm
  · intro h
    obtain ⟨m, hm, -⟩ := parse_of_factors h
    exact ⟨m, hm⟩

theorem standsFor_of_parse {m : Monomial} (h : parse text = .ok m) : StandsFor (tokens text) m := by
  obtain ⟨m', hm', hstands⟩ := parse_of_factors (exists_parse_iff.mp ⟨m, h⟩)
  cases h.symm.trans hm'
  exact hstands

/-- What comes of reading a text. -/
structure ReadsAs (text : String) : Prop where
  accepts : (∃ m, parse text = .ok m) ↔ ∀ token ∈ tokens text, IsFactor token
  power : ∀ m, parse text = .ok m → ∀ key, isNumeral key = false →
    m.power key = (tokens text).count key
  coefficient : ∀ m, parse text = .ok m →
    m.coefficient = .ok (((tokens text).filter isNumeral).map Numeral.value).prod
  /-- A text is refused for its first token that is no factor. -/
  refuses : (¬ ∀ token ∈ tokens text, IsFactor token) → ∃ before token after,
    tokens text = before ++ token :: after ∧ (∀ earlier ∈ before, IsFactor earlier) ∧
      ¬ IsFactor token ∧ parse text = .error (fault text token)
  /-- Texts that are joined by a star are multiplied. -/
  joins : ∀ other a b, parse text = .ok a → parse other = .ok b →
    ∃ c, parse (text ++ "*" ++ other) = .ok c ∧ (c == a * b) = true
  /-- The order of the tokens does not matter. -/
  permutes : ∀ other, (tokens text).Perm (tokens other) → ∀ a, parse text = .ok a →
    ∃ b, parse other = .ok b ∧ (a == b) = true

/-- `parse` accepts exactly the texts of the grammar and returns the product of their factors. Any
other text is refused for its first bad factor. -/
theorem parse_grammar (text : String) : ReadsAs text where
  accepts := exists_parse_iff
  power := fun _ h => (standsFor_of_parse h).power
  coefficient := fun _ h => (standsFor_of_parse h).coefficient
  refuses := fun h => by
    obtain ⟨before, token, after, htokens, hbefore, hfault⟩ := exists_first_fault h
    exact ⟨before, token, after, htokens, hbefore, hfault, parse_of_fault htokens hbefore hfault⟩
  joins := by
    intro other a b ha hb
    have htokens := tokens_append text other
    have hfactors : ∀ token ∈ tokens (text ++ "*" ++ other), IsFactor token := by
      rw [htokens, List.forall_mem_append]
      exact ⟨exists_parse_iff.mp ⟨a, ha⟩, exists_parse_iff.mp ⟨b, hb⟩⟩
    obtain ⟨c, hc, hstands⟩ := parse_of_factors hfactors
    rw [htokens] at hstands
    exact ⟨c, hc, hstands.beq ((standsFor_of_parse ha).append (standsFor_of_parse hb))⟩
  permutes := by
    intro other hperm a ha
    obtain ⟨b, hb, hstands⟩ := parse_of_factors fun token (htoken : token ∈ tokens other) =>
      exists_parse_iff.mp ⟨a, ha⟩ token (hperm.mem_iff.mpr htoken)
    exact ⟨b, hb, ((standsFor_of_parse ha).perm hperm).beq hstands⟩

end Monomial

end Dataflow
