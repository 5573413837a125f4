import Dataflow.Balance.Inconsistency
import Dataflow.Proofs.Balance.Tree

namespace Dataflow.Balance

/-- The links from the start of a tree to an actor. -/
def pathTo (tree : List Link) (a : Actor) : List Link :=
  (pathToStart tree.reverse a).reverse

private theorem pathTo_concat (tree : List Link) (link : Link) (a : Actor) :
    pathTo (tree ++ [link]) a =
      if link.far.actor.id = a.id then pathTo tree link.near.actor ++ [link]
      else pathTo tree a := by
  simp only [pathTo, List.reverse_append, List.reverse_singleton, List.singleton_append,
    pathToStart]
  split <;> simp

private theorem pathToStart_sublist (links : List Link) (a : Actor) :
    (pathToStart links a).Sublist links := by
  induction links generalizing a with
  | nil => exact List.Sublist.slnil
  | cons link links ih =>
    rw [pathToStart]
    split
    · exact (ih _).cons_cons link
    · exact (ih a).cons link

theorem pathTo_sublist (tree : List Link) (a : Actor) : (pathTo tree a).Sublist tree := by
  have h := (pathToStart_sublist tree.reverse a).reverse
  rwa [List.reverse_reverse] at h

namespace Tree

variable {g : Graph} {start : Actor} {tree : List Link} {a b : Actor}

/-- A link of the tree leads to an actor that no earlier link has reached. -/
theorem far_id_ne (hg : g.WellFormed) {link : Link} (h : Tree g start tree)
    (hchannel : link.channel ∈ g.channels) (hfar : link.far.actor ∉ reached start tree)
    (ha : a ∈ reached start tree) : link.far.actor.id ≠ a.id := by
  intro hid
  have hmem := hg.far_mem hchannel
  exact hfar (hg.actor_eq_of_id hmem (h.reached_subset hg ha) hid ▸ ha)

theorem leads_pathTo (hg : g.WellFormed) (h : Tree g start tree) (ha : a ∈ reached start tree) :
    Leads start (pathTo tree a) a := by
  induction h generalizing a with
  | root _ =>
    obtain rfl : a = start := by simpa [reached] using ha
    rfl
  | @grow tree link h hchannel hnear hfar ih =>
    rw [reached_concat] at ha
    rw [pathTo_concat]
    obtain ha | ha := List.mem_append.mp ha
    · rw [if_neg (h.far_id_ne hg hchannel hfar ha)]
      exact ih ha
    · rw [List.mem_singleton.mp ha, if_pos rfl]
      exact (ih hnear).append ⟨rfl, rfl⟩

/-- A path passes an actor on the path to that actor. -/
theorem pathTo_far (hg : g.WellFormed) (h : Tree g start tree) (ha : a ∈ reached start tree)
    {before after : List Link} {link : Link} (hpath : pathTo tree a = before ++ link :: after) :
    pathTo tree link.far.actor = before ++ [link] := by
  induction h generalizing a after with
  | root _ => simp [pathTo, pathToStart] at hpath
  | @grow tree last h hchannel hnear hfar ih =>
    rw [reached_concat] at ha
    rw [pathTo_concat] at hpath ⊢
    -- A link before the last one leads elsewhere, so its path is a path of the smaller tree.
    have hearlier {c : Actor} {after : List Link} (hc : c ∈ reached start tree)
        (hpath : pathTo tree c = before ++ link :: after) :
        (if last.far.actor.id = link.far.actor.id then pathTo tree last.near.actor ++ [last]
          else pathTo tree link.far.actor) = before ++ [link] := by
      have hmem : link ∈ tree := (pathTo_sublist tree c).subset (by simp [hpath])
      rw [if_neg (h.far_id_ne hg hchannel hfar (mem_reached_of_mem hmem))]
      exact ih hc hpath
    obtain ha | ha := List.mem_append.mp ha
    · rw [if_neg (h.far_id_ne hg hchannel hfar ha)] at hpath
      exact hearlier ha hpath
    · rw [List.mem_singleton.mp ha, if_pos rfl] at hpath
      obtain rfl | ⟨rest, final, rfl⟩ := after.eq_nil_or_concat'
      · obtain ⟨rfl, hlast⟩ := List.append_inj' hpath rfl
        obtain rfl : last = link := by simpa using hlast
        rw [if_pos rfl]
      · rw [← List.cons_append, ← List.append_assoc] at hpath
        exact hearlier hnear (List.append_inj' hpath rfl).1

end Tree

/-- What is left of two lists of links has nothing in front that it shares. -/
theorem dropShared_spec {as bs : List Link}
    (hinj : ∀ a ∈ as, ∀ b ∈ bs, a.channel.id = b.channel.id → a = b) :
    ∃ shared, as = shared ++ (dropShared as bs).1 ∧ bs = shared ++ (dropShared as bs).2 ∧
      ∀ link ∈ (dropShared as bs).1.head?, link ∉ (dropShared as bs).2.head? := by
  induction as, bs using dropShared.induct with
  | case1 a as b bs hid ih =>
    obtain ⟨shared, has, hbs, hheads⟩ := ih fun a' ha' b' hb' =>
      hinj a' (List.mem_cons_of_mem _ ha') b' (List.mem_cons_of_mem _ hb')
    have hab := hinj a List.mem_cons_self b List.mem_cons_self hid
    rw [dropShared, if_pos hid]
    exact ⟨a :: shared, by rw [List.cons_append, ← has], by rw [List.cons_append, ← hbs, hab],
      hheads⟩
  | case2 a as b bs hid =>
    rw [dropShared, if_neg hid]
    refine ⟨[], rfl, rfl, ?_⟩
    rintro link hlink hlink'
    simp only [List.head?_cons, Option.mem_some_iff] at hlink hlink'
    exact hid (by rw [hlink, hlink'])
  | case3 as bs hempty =>
    have hdrop : dropShared as bs = (as, bs) := by
      cases as with
      | nil => simp [dropShared]
      | cons a as =>
        cases bs with
        | nil => simp [dropShared]
        | cons b bs => exact absurd rfl (hempty a as b bs rfl)
    rw [hdrop]
    refine ⟨[], rfl, rfl, ?_⟩
    rintro link hlink hlink'
    obtain ⟨as, rfl⟩ := List.head?_eq_some_iff.mp hlink
    obtain ⟨bs, rfl⟩ := List.head?_eq_some_iff.mp hlink'
    exact hempty link as link bs rfl rfl

end Dataflow.Balance
