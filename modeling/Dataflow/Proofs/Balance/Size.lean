import Dataflow.Proofs.Balance.Legible
import Dataflow.Proofs.Balance.Refutation
import Dataflow.Proofs.Monomial.Grammar
import Mathlib.Algebra.Order.BigOperators.Group.List

namespace Dataflow

/-- The number of factors in the text of a port's rate. -/
def Graph.rateLength (g : Graph) (p : Port) : Nat :=
  ((g.rateText? p).map fun text => (Monomial.tokens text).length).getD 0

/-- The number of factors in the rates at the two ends of a channel. -/
def Graph.channelLength (g : Graph) (c : Channel) : Nat :=
  g.rateLength c.source.port + g.rateLength c.target.port

/-- The number of factors in the rates at the ends of all channels. -/
def Graph.factorCount (g : Graph) : Nat :=
  (g.channels.map g.channelLength).sum

section Rates

variable {g : Graph} {key : String}

/-- No parameter occurs in a rate more often than its text has factors. -/
theorem Graph.power_le_rateLength {p : Port} {m : Monomial} (h : g.readRate p = .ok m)
    (hkey : Text.isNumeral key = false) : m.power key ≤ g.rateLength p := by
  unfold readRate at h
  split at h
  · rename_i text htext
    rw [rateLength, htext, (Monomial.standsFor_of_parse h).power key hkey]
    exact List.count_le_length
  · cases h

theorem Graph.channelLength_eq {c : Channel} {produced consumed : String}
    (hproduced : g.rateText? c.source.port = some produced)
    (hconsumed : g.rateText? c.target.port = some consumed) :
    g.channelLength c =
      (Monomial.tokens produced).length + (Monomial.tokens consumed).length := by
  rw [channelLength, rateLength, rateLength, hproduced, hconsumed]
  rfl

private theorem Graph.length_link (g : Graph) (link : Link) :
    g.rateLength link.near.port + g.rateLength link.far.port = g.channelLength link.channel := by
  obtain ⟨c, direction⟩ := link
  cases direction with
  | output => rfl
  | input => exact Nat.add_comm _ _

/-- The channels of a graph, none of them twice, have no more factors than the graph. -/
theorem Graph.sum_channelLength_le {channels : List Channel} (hnodup : channels.Nodup)
    (hsub : channels ⊆ g.channels) :
    (channels.map g.channelLength).sum ≤ g.factorCount := by
  obtain ⟨list, hperm, hsublist⟩ := List.subperm_of_subset hnodup hsub
  rw [← (hperm.map g.channelLength).sum_eq]
  exact (hsublist.map g.channelLength).sum_le_sum fun _ _ => Nat.zero_le _

end Rates

namespace Balance

variable {g : Graph} {start : Actor} {tree walk : List Link} {key : String}

/-- Over the links of a tree the counts that balance them differ by no more than the factors of
their rates. -/
theorem Tree.sub_le {φ : Actor → String → Int} (h : Tree g start tree)
    (hφ : ∀ link ∈ tree, Conserves g φ link.channel) (hkey : Text.isNumeral key = false) :
    ∀ a ∈ reached start tree, ∀ b ∈ reached start tree,
      φ a key - φ b key ≤ ((tree.map (·.channel)).map g.channelLength).sum := by
  induction h with
  | root _ =>
    intro a ha b hb
    obtain rfl : a = start := by simpa [reached] using ha
    obtain rfl : b = a := by simpa [reached] using hb
    simp
  | @grow tree link h _ hnear _ ih =>
    have ih := ih fun l hl => hφ l (List.mem_append_left _ hl)
    have hlink : link ∈ tree ++ [link] := List.mem_append_right _ (List.mem_singleton_self _)
    obtain ⟨left, entered, hleft, hentered, heq⟩ := (hφ link hlink).along
    have hstep := heq key
    have hleftLength := Graph.power_le_rateLength hleft hkey
    have henteredLength := Graph.power_le_rateLength hentered hkey
    have hlength := g.length_link link
    have hsum : (((tree ++ [link]).map (·.channel)).map g.channelLength).sum =
        ((tree.map (·.channel)).map g.channelLength).sum + g.channelLength link.channel := by
      simp
    intro a ha b hb
    rw [hsum]
    rw [reached_concat] at ha hb
    -- An actor that the last link reaches is compared with the one that the link leaves.
    obtain ha | ha := List.mem_append.mp ha <;> obtain hb | hb := List.mem_append.mp hb
    · have hle := ih a ha b hb
      omega
    · have hle := ih a ha _ hnear
      rw [List.mem_singleton.mp hb]
      omega
    · have hle := ih _ hnear b hb
      rw [List.mem_singleton.mp ha]
      omega
    · rw [List.mem_singleton.mp ha, List.mem_singleton.mp hb]
      omega

/-- No parameter occurs in a count more often than there are factors in the rates of the graph. -/
theorem Found.power_le {table : Repetitions} {a : Actor} (hg : g.WellFormed) (h : Found g table)
    (ha : a ∈ g.actors) (hkey : Text.isNumeral key = false) :
    (table.count a).power key ≤ g.factorCount := by
  obtain ⟨hactors, -⟩ | ⟨first, -, fractions, hspread, -, hscale⟩ := h.scaled hg
  · rw [hactors] at ha
    cases ha
  · obtain ⟨b, hb, hzero⟩ := hspread.exists_power_eq_zero hg hscale key
    have hconserves : ∀ link ∈ spanningTree g first,
        Conserves g (fun a key => (table.count a).power key) link.channel := fun link hlink =>
      balances_iff.mp ((h.solved hg).balances _ (hspread.tree.channel_mem link hlink))
    have hsub := hspread.tree.sub_le hconserves hkey a (hspread.mem_reached a ha) b
      (hspread.mem_reached b hb)
    have hchannels : (spanningTree g first).map (·.channel) ⊆ g.channels := by
      intro c hc
      obtain ⟨link, hlink, rfl⟩ := List.mem_map.mp hc
      exact hspread.tree.channel_mem link hlink
    have hle := Graph.sum_channelLength_le hspread.tree.nodup_channels hchannels
    omega

/-- What a walk gains has no parameter more often than there are factors in the rates along it. -/
theorem natAbs_exponent_gain_le {r : Ratio} (h : gain g walk = .ok r)
    (hkey : Text.isNumeral key = false) :
    (r.exponent key).natAbs ≤ ((walk.map (·.channel)).map g.channelLength).sum := by
  induction walk generalizing r with
  | nil =>
    cases h
    simp
  | cons link walk ih =>
    obtain ⟨left, hleft, h⟩ := Except.bind_eq_ok_iff.mp h
    obtain ⟨entered, hentered, h⟩ := Except.bind_eq_ok_iff.mp h
    obtain ⟨rest, hrest, h⟩ := Except.bind_eq_ok_iff.mp h
    cases h
    have hle := ih hrest
    have hleftLength := Graph.power_le_rateLength hleft hkey
    have henteredLength := Graph.power_le_rateLength hentered hkey
    have hlength := g.length_link link
    rw [Ratio.exponent_mul, Ratio.exponent_of, List.map_cons, List.map_cons, List.sum_cons]
    omega

/-- The ratio of a refutation has no parameter more often than there are factors in the rates of the
graph. -/
theorem Refutes.natAbs_exponent_le {evidence : Inconsistency} (h : Refutes g evidence walk)
    (hkey : Text.isNumeral key = false) :
    (evidence.ratio.exponent key).natAbs ≤ g.factorCount := by
  obtain ⟨r, hr, hratio⟩ := h.gain_eq
  have hchannels : walk.map (·.channel) ⊆ g.channels := by
    intro c hc
    obtain ⟨link, hlink, rfl⟩ := List.mem_map.mp hc
    exact h.mem_channels link hlink
  have hle := Graph.sum_channelLength_le h.simpleCycle.nodup_channels hchannels
  have hgain := natAbs_exponent_gain_le hr hkey
  rw [Ratio.beq_iff.mp hratio key]
  omega

end Balance

end Dataflow
