import Ratputer.Config
import Ratputer.Lib.TopK

/-!
# Scan results

However many passes a scan makes, the list it keeps is the eight strongest networks of all passes, each with its strongest
signal, although every pass cuts the list to eight. The sort is not stable: `MergesTo` leaves the order of equal signals open,
and with it which of several equal networks is cut.
-/

namespace Ratputer

/-- `mergeScanResults` with a sort that may order equal signals in any way. -/
def MergesTo (networks results networks' : List ScanNetwork) : Prop :=
  ∃ sorted : List ScanNetwork, sorted.Perm (results.foldl mergeScanResult networks) ∧
    (sorted.Pairwise fun left right => right.signalStrength ≤ left.signalStrength) ∧ networks' = sorted.take MAX_SCAN_RESULTS

/-- The passes of a scan from an empty list. -/
inductive Scanned : List (List ScanNetwork) → List ScanNetwork → Prop
  | start : Scanned [] []
  | pass {passes : List (List ScanNetwork)} {networks results networks' : List ScanNetwork} :
      Scanned passes networks → MergesTo networks results networks' → Scanned (passes ++ [results]) networks'

/-- The list holds the eight (or all, if fewer) SSIDs of the strongest signals among the results, each with its strongest
signal, in descending order. -/
abbrev TopEight (results networks : List ScanNetwork) : Prop :=
  TopK.Top ScanNetwork.ssid ScanNetwork.signalStrength 8 results networks

namespace ScanAux

open TopK

/-- The list has every SSID of the results once, with its strongest signal. -/
abbrev Strongest (results networks : List ScanNetwork) : Prop := Maxima ScanNetwork.ssid ScanNetwork.signalStrength results networks

/-- A result whose SSID the list does not have goes to its end. -/
theorem mergeScanResult_new {networks : List ScanNetwork} {network : ScanNetwork} (h : network.ssid ∉ networks.map (·.ssid)) :
    mergeScanResult networks network = networks ++ [network] := by
  refine if_neg fun hany => h ?_
  obtain ⟨entry, hmem, hssid⟩ := List.any_eq_true.mp hany
  exact List.mem_map.mpr ⟨entry, hmem, of_decide_eq_true hssid⟩

/-- A result whose SSID the list has goes into that entry. -/
theorem mergeScanResult_known {pre post : List ScanNetwork} {entry network : ScanNetwork}
    (h : (pre ++ entry :: post).map (·.ssid) |>.Nodup) (hssid : entry.ssid = network.ssid) :
    mergeScanResult (pre ++ entry :: post) network =
      pre ++ { entry with signalStrength := max entry.signalStrength network.signalStrength } :: post := by
  have hany : (pre ++ entry :: post).any (·.ssid = network.ssid) = true :=
    List.any_eq_true.mpr ⟨entry, List.mem_append_right _ List.mem_cons_self, decide_eq_true hssid⟩
  rw [mergeScanResult, if_pos hany]
  clear hany
  induction pre with
  | nil => simp [List.replaceF, hssid]
  | cons first pre ih =>
    rw [List.cons_append, List.map_cons, List.nodup_cons] at h
    have hne : first.ssid ≠ network.ssid := fun he =>
      h.1 (List.mem_map.mpr ⟨entry, List.mem_append_right _ List.mem_cons_self, hssid.trans he.symm⟩)
    rw [List.cons_append, List.replaceF_cons, if_neg hne]
    exact congrArg (first :: ·) (ih h.2)

/-- One result keeps the list the strongest of what came. -/
theorem strongest_step {results networks : List ScanNetwork} (h : Strongest results networks) (network : ScanNetwork) :
    Strongest (results ++ [network]) (mergeScanResult networks network) := by
  by_cases hin : network.ssid ∈ networks.map (·.ssid)
  · obtain ⟨entry, hmem, hssid⟩ := List.mem_map.mp hin
    obtain ⟨pre, post, rfl⟩ := List.append_of_mem hmem
    rw [mergeScanResult_known h.nodup hssid]
    have hkeys : (pre ++ { entry with signalStrength := max entry.signalStrength network.signalStrength } :: post).map (·.ssid) =
        (pre ++ entry :: post).map (·.ssid) := by simp
    refine ⟨hkeys ▸ h.nodup, fun a ha => ?_, fun r hr => ?_⟩
    · have hentry := h.isMax entry hmem
      rcases List.mem_cons.mp (List.perm_middle.mem_iff.mp ha) with rfl | ha
      · -- The entry of the SSID: its signal, or the stronger one of the result.
        refine ⟨?_, fun r hr hkey => ?_⟩
        · rcases le_total network.signalStrength entry.signalStrength with hmax | hmax
          · obtain ⟨r, hr, hkey, hvalue⟩ := hentry.attained
            exact ⟨r, List.mem_append_left _ hr, hkey, hvalue.trans (max_eq_left hmax).symm⟩
          · exact ⟨network, List.mem_append_right _ List.mem_cons_self, hssid.symm, (max_eq_right hmax).symm⟩
        · rcases List.mem_append.mp hr with hr | hr
          · exact (hentry.le r hr hkey).trans (le_max_left _ _)
          · obtain rfl := List.mem_singleton.mp hr
            exact le_max_right _ _
      · have ha' : a ∈ pre ++ entry :: post := List.perm_middle.mem_iff.mpr (List.mem_cons_of_mem _ ha)
        have hne : entry ∉ pre ++ post := by
          have hnodup := List.Nodup.of_map _ h.nodup
          exact (List.nodup_cons.mp (List.nodup_middle.mp hnodup)).1
        refine (h.isMax a ha').append fun hkey => ?_
        have heq := List.inj_on_of_nodup_map h.nodup ha' hmem (hkey.symm.trans hssid.symm)
        exact absurd (heq ▸ ha) hne
    · rw [hkeys]
      rcases List.mem_append.mp hr with hr | hr
      · exact h.covers r hr
      · exact (List.mem_singleton.mp hr) ▸ hin
  · rw [mergeScanResult_new hin]
    refine ⟨?_, fun a ha => ?_, fun r hr => ?_⟩
    · rw [List.map_append, List.nodup_append]
      refine ⟨h.nodup, List.nodup_singleton _, fun x hx y hy heq => ?_⟩
      obtain rfl := List.mem_singleton.mp hy
      exact hin (heq ▸ hx)
    · rcases List.mem_append.mp ha with ha | ha
      · exact (h.isMax a ha).append fun hkey => absurd (List.mem_map.mpr ⟨a, ha, hkey.symm⟩) hin
      · obtain rfl := List.mem_singleton.mp ha
        refine ⟨⟨a, List.mem_append_right _ List.mem_cons_self, rfl, rfl⟩, fun r hr hkey => ?_⟩
        rcases List.mem_append.mp hr with hr | hr
        · exact absurd (hkey ▸ h.covers r hr) hin
        · exact le_of_eq (congrArg _ (List.mem_singleton.mp hr))
    · rw [List.map_append]
      rcases List.mem_append.mp hr with hr | hr
      · exact List.mem_append_left _ (h.covers r hr)
      · exact List.mem_append_right _ ((List.mem_singleton.mp hr) ▸ List.mem_cons_self)

/-- A pass taken into a list of distinct SSIDs gives the strongest of both. -/
theorem strongest_pass {networks : List ScanNetwork} (h : (networks.map (·.ssid)).Nodup) (results : List ScanNetwork) :
    Strongest (networks ++ results) (results.foldl mergeScanResult networks) := by
  have hrun (results : List ScanNetwork) : ∀ all networks, Strongest all networks →
      Strongest (all ++ results) (results.foldl mergeScanResult networks) := by
    induction results with
    | nil => exact fun all networks h => by rwa [List.append_nil]
    | cons network results ih =>
      intro all networks h
      have := ih _ _ (strongest_step h network)
      rwa [List.append_assoc] at this
  exact hrun results networks networks (Maxima.of_nodup h)

/-- The sort of the model is one of those. -/
theorem mergesTo_mergeScanResults (networks results : List ScanNetwork) :
    MergesTo networks results (mergeScanResults networks results) := by
  refine ⟨_, List.perm_insertionSort _ _, ?_, rfl⟩
  exact List.pairwise_insertionSort _ _

end ScanAux

open ScanAux in
/-- After any passes the list is the top eight of all their results, however equal signals are ordered; the list of the model is
one of these. -/
theorem scan_top_eight (passes : List (List ScanNetwork)) :
    (∀ networks, Scanned passes networks → TopEight passes.flatten networks) ∧
      Scanned passes (passes.foldl mergeScanResults []) := by
  constructor
  · intro networks h
    induction h with
    | start => exact TopK.top_nil 8
    | pass _ hmerge ih =>
      obtain ⟨sorted, hperm, hsorted, rfl⟩ := hmerge
      rw [List.flatten_append, List.flatten_singleton]
      exact ih.merge (strongest_pass ih.nodup _) hperm hsorted
  · have hrun (passes : List (List ScanNetwork)) : ∀ done networks, Scanned done networks →
        Scanned (done ++ passes) (passes.foldl mergeScanResults networks) := by
      induction passes with
      | nil => exact fun done networks h => by rwa [List.append_nil]
      | cons results passes ih =>
        intro done networks h
        have := ih _ _ (Scanned.pass h (mergesTo_mergeScanResults networks results))
        rwa [List.append_assoc] at this
    exact hrun passes [] [] .start

/-- A network that a first pass cut comes back weaker in a second, and is not kept with the weaker signal. -/
def cutAndBack : List (List ScanNetwork) :=
  [(List.range 9).map fun i => ⟨toString i, -40 - i, .open, true⟩, [⟨"8", -60, .open, true⟩]]

theorem scan_top_eight_cut : TopEight cutAndBack.flatten (cutAndBack.foldl mergeScanResults []) :=
  (scan_top_eight cutAndBack).1 _ (scan_top_eight cutAndBack).2

end Ratputer
