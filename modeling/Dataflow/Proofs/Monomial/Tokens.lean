import Dataflow.Monomial
import Mathlib.Data.List.DropRight

namespace Dataflow

open Text

namespace Text

private theorem trim_eq_rdropWhile (cs : List Char) :
    trim cs = (cs.dropWhile isBlank).rdropWhile isBlank := rfl

theorem trim_eq_self_of_forall {cs : List Char} (h : ∀ c ∈ cs, isBlank c = false) :
    trim cs = cs := by
  have hfront : cs.dropWhile isBlank = cs :=
    List.dropWhile_eq_self_iff.mpr fun _ => by simp [h _ (List.getElem_mem _)]
  rw [trim_eq_rdropWhile, hfront, List.rdropWhile_eq_self_iff]
  intro hne
  simp [h _ (List.getLast_mem hne)]

private theorem trim_trim (cs : List Char) : trim (trim cs) = trim cs := by
  -- What is left begins as the text does without its first blanks, unless nothing is left.
  have hfront : (trim cs).dropWhile isBlank = trim cs := by
    rw [List.dropWhile_eq_self_iff]
    intro hpos
    have hbegins : trim cs <+: cs.dropWhile isBlank := List.rdropWhile_prefix _ _
    have hrest := List.dropWhile_eq_self_iff.mp (List.dropWhile_idempotent (p := isBlank) (l := cs))
    rw [hbegins.getElem hpos]
    exact hrest _
  rw [trim_eq_rdropWhile (trim cs), hfront, trim_eq_rdropWhile, List.rdropWhile_idempotent]

private theorem mem_of_mem_trim {cs : List Char} {c : Char} (h : c ∈ trim cs) : c ∈ cs :=
  (List.dropWhile_sublist _).subset ((List.rdropWhile_prefix _ _).subset h)

end Text

namespace Monomial

/-- A factor that is read as it is written. -/
structure IsToken (token : String) : Prop where
  ne_nil : token.toList ≠ []
  no_star : '*' ∉ token.toList
  trim_eq : trim token.toList = token.toList

private theorem splitAtStars_ne_nil (cs : List Char) : splitAtStars cs ≠ [] := by
  induction cs with
  | nil => simp [splitAtStars]
  | cons c cs ih =>
    rw [splitAtStars]
    split
    · simp
    · split <;> simp

private theorem splitAtStars_append (cs ds : List Char) :
    splitAtStars (cs ++ '*' :: ds) = splitAtStars cs ++ splitAtStars ds := by
  induction cs with
  | nil => simp [splitAtStars]
  | cons c cs ih =>
    rw [List.cons_append, splitAtStars, splitAtStars, ih]
    split
    · rfl
    · obtain ⟨piece, pieces, hsplit⟩ := List.exists_cons_of_ne_nil (splitAtStars_ne_nil cs)
      rw [hsplit]
      rfl

private theorem splitAtStars_eq_singleton {piece : List Char} (h : '*' ∉ piece) :
    splitAtStars piece = [piece] := by
  induction piece with
  | nil => rfl
  | cons c piece ih =>
    rw [List.mem_cons, not_or] at h
    rw [splitAtStars, if_neg (Ne.symm h.1), ih h.2]

private theorem no_star_of_mem_splitAtStars {cs piece : List Char} (h : piece ∈ splitAtStars cs) :
    '*' ∉ piece := by
  induction cs generalizing piece with
  | nil => simp [List.mem_singleton.mp h]
  | cons c cs ih =>
    rw [splitAtStars] at h
    split at h
    · obtain rfl | h := List.mem_cons.mp h
      · simp
      · exact ih h
    · rename_i hc
      cases hsplit : splitAtStars cs with
      | nil => exact absurd hsplit (splitAtStars_ne_nil cs)
      | cons first rest =>
        simp only [hsplit] at h ih
        obtain rfl | h := List.mem_cons.mp h
        · rw [List.mem_cons, not_or]
          exact ⟨Ne.symm hc, ih List.mem_cons_self⟩
        · exact ih (List.mem_cons_of_mem _ h)

theorem isToken_of_mem_tokens {text token : String} (h : token ∈ tokens text) : IsToken token := by
  obtain ⟨cs, hcs, rfl⟩ := List.mem_map.mp h
  obtain ⟨hcs, hne⟩ := List.mem_filter.mp hcs
  obtain ⟨piece, hpiece, rfl⟩ := List.mem_map.mp hcs
  refine ⟨by simpa using hne, fun hstar => ?_, by rw [String.toList_ofList, trim_trim]⟩
  rw [String.toList_ofList] at hstar
  exact no_star_of_mem_splitAtStars hpiece (mem_of_mem_trim hstar)

/-- The factors of texts that are joined by a star are those of the one and those of the other. -/
theorem tokens_append (s t : String) : tokens (s ++ "*" ++ t) = tokens s ++ tokens t := by
  have hchars : (s ++ "*" ++ t).toList = s.toList ++ '*' :: t.toList := by
    rw [String.toList_append, String.toList_append, List.append_assoc]
    rfl
  rw [tokens, hchars, splitAtStars_append, List.map_append, List.filter_append, List.map_append,
    ← tokens, ← tokens]

private theorem splitAtStars_intercalate {pieces : List String} (hne : pieces ≠ [])
    (h : ∀ piece ∈ pieces, IsToken piece) :
    splitAtStars ("*".intercalate pieces).toList = pieces.map String.toList := by
  induction pieces with
  | nil => exact absurd rfl hne
  | cons piece pieces ih =>
    obtain ⟨hpiece, hrest⟩ := List.forall_mem_cons.mp h
    cases pieces with
    | nil => simpa using splitAtStars_eq_singleton hpiece.no_star
    | cons next pieces =>
      rw [String.intercalate_cons_cons, String.toList_append, String.toList_append,
        List.append_assoc]
      refine (splitAtStars_append _ _).trans ?_
      rw [splitAtStars_eq_singleton hpiece.no_star]
      exact congrArg _ (ih (List.cons_ne_nil _ _) hrest)

/-- Factors that are joined are the factors that are found. -/
theorem tokens_intercalate {pieces : List String} (h : ∀ piece ∈ pieces, IsToken piece) :
    tokens ("*".intercalate pieces) = pieces := by
  by_cases hne : pieces = []
  · subst hne
    decide +kernel
  have htrim : pieces.map (trim ∘ String.toList) = pieces.map String.toList :=
    List.map_congr_left fun piece hpiece => (h piece hpiece).trim_eq
  have hfilter : (pieces.map String.toList).filter (fun cs => !cs.isEmpty) =
      pieces.map String.toList := by
    rw [List.filter_eq_self, List.forall_mem_map]
    intro piece hpiece
    simpa using (h piece hpiece).ne_nil
  rw [tokens, splitAtStars_intercalate hne h, List.map_map, htrim, hfilter, List.map_map]
  simp [Function.comp_def]

end Monomial

end Dataflow
