import Dataflow.Text.Order

namespace Dataflow.Text

private theorem precedes_total (as bs : List Char) : (precedes as bs || precedes bs as) = true := by
  induction as generalizing bs with
  | nil => rfl
  | cons a as ih =>
    cases bs with
    | nil => rfl
    | cons b bs =>
      have hrest := ih bs
      by_cases hab : a = b
      · subst hab
        simpa [precedes] using hrest
      · have hne : a.toNat ≠ b.toNat := fun h => hab (Char.toNat_inj.mp h)
        have hlt : a.toNat < b.toNat ∨ b.toNat < a.toNat := by omega
        simpa [precedes, hab, Ne.symm hab] using hlt

private theorem precedes_trans {as bs cs : List Char} (h : precedes as bs = true)
    (h' : precedes bs cs = true) : precedes as cs = true := by
  induction as generalizing bs cs with
  | nil => rfl
  | cons a as ih =>
    cases bs with
    | nil => simp [precedes] at h
    | cons b bs =>
      cases cs with
      | nil => simp [precedes] at h'
      | cons c cs =>
        simp only [precedes, Bool.or_eq_true, Nat.blt_eq, Bool.and_eq_true, beq_iff_eq] at h h' ⊢
        obtain h | ⟨rfl, h⟩ := h <;> obtain h' | ⟨rfl, h'⟩ := h'
        · exact .inl (Nat.lt_trans h h')
        · exact .inl h
        · exact .inl h'
        · exact .inr ⟨rfl, ih h h'⟩

private theorem precedes_antisymm {as bs : List Char} (h : precedes as bs = true)
    (h' : precedes bs as = true) : as = bs := by
  induction as generalizing bs with
  | nil =>
    cases bs with
    | nil => rfl
    | cons b bs => simp [precedes] at h'
  | cons a as ih =>
    cases bs with
    | nil => simp [precedes] at h
    | cons b bs =>
      simp only [precedes, Bool.or_eq_true, Nat.blt_eq, Bool.and_eq_true, beq_iff_eq] at h h'
      obtain hlt | ⟨rfl, h⟩ := h
      · obtain hgt | ⟨rfl, -⟩ := h'
        · exact absurd hlt (Nat.lt_asymm hgt)
        · exact absurd hlt (Nat.lt_irrefl _)
      · obtain hgt | ⟨-, h'⟩ := h'
        · exact absurd hgt (Nat.lt_irrefl _)
        · rw [ih h h']

private theorem textLE_antisymm {s t : String} (h : textLE s t = true) (h' : textLE t s = true) :
    s = t :=
  String.toList_injective (precedes_antisymm h h')

private theorem textLE_trans (s t u : String) (h : textLE s t = true) (h' : textLE t u = true) :
    textLE s u = true :=
  precedes_trans h h'

private theorem textLE_total (s t : String) : (textLE s t || textLE t s) = true :=
  precedes_total s.toList t.toList

/-- Sorted texts ascend. -/
theorem pairwise_sortTexts (texts : List String) :
    (sortTexts texts).Pairwise fun s t => textLE s t = true :=
  List.pairwise_mergeSort textLE_trans textLE_total texts

theorem mem_sortTexts {texts : List String} {s : String} : s ∈ sortTexts texts ↔ s ∈ texts :=
  List.mem_mergeSort

/-- The order of texts does not depend on the order in which they come. -/
theorem sortTexts_congr {texts texts' : List String} (h : texts.Perm texts') :
    sortTexts texts = sortTexts texts' := by
  have hperm : (sortTexts texts).Perm (sortTexts texts') :=
    ((List.mergeSort_perm _ _).trans h).trans (List.mergeSort_perm _ _).symm
  exact hperm.eq_of_pairwise (fun _ _ _ _ => textLE_antisymm) (pairwise_sortTexts texts)
    (pairwise_sortTexts texts')

theorem textLE_refl (s : String) : textLE s s = true := by
  simpa using textLE_total s s

end Dataflow.Text
