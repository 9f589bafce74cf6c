import Mathlib
import FlvDemux.Script.KeyframeIndex

/-!
# Building and searching a keyframe index

An index built from positions and times is their pairs sorted stably by time, and a lookup finds
the last entry at or before a time, or the first when all come later
(`KeyframeIndex.lookup_of_sorted`). The main statement is `ofLists_stable_sort_lookup`.
-/

namespace FlvDemux.Script

namespace KeyframeIndex

/-- The order the index sorts by: time. -/
def byTime (a b : Keyframe) : Bool := decide (a.timeHns ≤ b.timeHns)

theorem byTime_trans (a b c : Keyframe) (hab : byTime a b) (hbc : byTime b c) : byTime a c := by
  simp only [byTime, decide_eq_true_eq] at *
  exact UInt64.le_trans hab hbc

theorem byTime_total (a b : Keyframe) : (byTime a b || byTime b a) = true := by
  simp only [byTime, Bool.or_eq_true, decide_eq_true_eq]
  exact UInt64.le_total _ _

theorem zip_swap (P T : List UInt64) :
    ((T.zip P).map fun (t, p) => (⟨p, t⟩ : Keyframe)) = List.zipWith Keyframe.mk P T := by
  induction P generalizing T with
  | nil => cases T <;> rfl
  | cons p P ih =>
    cases T with
    | nil => rfl
    | cons t T => simp [ih]

theorem entries_ofLists (P T : List UInt64) :
    (ofLists P T).entries = (List.zipWith Keyframe.mk P T).mergeSort byTime := by
  rw [ofLists, zip_swap]
  rfl

theorem filter_time_mergeSort (l : List Keyframe) (t : UInt64) :
    (l.mergeSort byTime).filter (·.timeHns = t) = l.filter (·.timeHns = t) := by
  -- the entries of one time are sorted among themselves, so they stay a sublist of the sort
  have hsorted : (l.filter (·.timeHns = t)).Pairwise (fun a b => byTime a b) := by
    refine List.Pairwise.imp_of_mem ?_
      (List.pairwise_of_forall (R := fun _ _ => True) (fun _ _ => trivial))
    intro a b ha hb _
    simp only [List.mem_filter, decide_eq_true_eq] at ha hb
    simp [byTime, ha.2, hb.2]
  have hsub : List.Sublist (l.filter (·.timeHns = t)) (l.mergeSort byTime) :=
    List.sublist_mergeSort byTime_trans byTime_total hsorted List.filter_sublist
  have hsub' : List.Sublist (l.filter (·.timeHns = t))
      ((l.mergeSort byTime).filter (·.timeHns = t)) := by
    simpa only [List.filter_filter, Bool.and_self] using hsub.filter (·.timeHns = t)
  -- and the sort has no more of them than the list
  have hlen := ((List.mergeSort_perm l byTime).filter (·.timeHns = t)).length_eq
  exact (hsub'.eq_of_length hlen.symm).symm

theorem sorted_ofLists (P T : List UInt64) :
    (ofLists P T).entries.Pairwise (fun a b => a.timeHns ≤ b.timeHns) := by
  rw [entries_ofLists]
  exact (List.pairwise_mergeSort byTime_trans byTime_total _).imp (by simp [byTime])

theorem takeWhile_eq_filter {l : List Keyframe}
    (hl : l.Pairwise (fun a b => a.timeHns ≤ b.timeHns)) (t : UInt64) :
    l.takeWhile (·.timeHns ≤ t) = l.filter (·.timeHns ≤ t) := by
  induction l with
  | nil => rfl
  | cons a l ih =>
    obtain ⟨ha, hl⟩ := List.pairwise_cons.1 hl
    by_cases hat : a.timeHns ≤ t
    · simp [hat, ih hl]
    · have hrest : l.filter (·.timeHns ≤ t) = [] := by
        rw [List.filter_eq_nil_iff]
        intro b hb hbt
        exact hat (UInt64.le_trans (ha b hb) (by simpa using hbt))
      simp [hat, hrest]

theorem getElem_takeWhile_length (l : List Keyframe) (p : Keyframe → Bool) :
    l[(l.takeWhile p).length - 1]? = (l.takeWhile p).getLast?.or l.head? := by
  cases hw : l.takeWhile p with
  | nil => cases l <;> rfl
  | cons a w =>
    have hsplit := List.takeWhile_append_dropWhile (p := p) (l := l)
    rw [hw] at hsplit
    conv_lhs => rw [← hsplit]
    rw [List.getElem?_append_left (by simp), ← List.getLast?_eq_getElem?]
    cases hl : (a :: w).getLast? with
    | none => simp at hl
    | some x => rfl

theorem lookup_of_sorted {i : KeyframeIndex}
    (hs : i.entries.Pairwise (fun a b => a.timeHns ≤ b.timeHns)) (t : UInt64) :
    i.lookup t = (i.entries.filter (·.timeHns ≤ t)).getLast?.or i.entries.head? := by
  rw [lookup, ← takeWhile_eq_filter hs, ← getElem_takeWhile_length]
  cases i.entries with
  | nil => rfl
  | cons a l => rfl

theorem lookup_eq_none_iff (i : KeyframeIndex) (t : UInt64) : i.lookup t = none ↔ i.entries = [] := by
  rw [lookup]
  cases i.entries with
  | nil => simp
  | cons a l =>
    rw [getElem_takeWhile_length]
    simp

/-- The index of two lists holds the pairs of the shorter length, sorted stably by time, and a
lookup finds the last keyframe at or before the time asked, or the first keyframe. -/
theorem ofLists_stable_sort_lookup (P T : List UInt64) :
    (ofLists P T).entries.length = min P.length T.length ∧
    (ofLists P T).timesHns.Pairwise (· ≤ ·) ∧
    List.Perm (ofLists P T).entries (List.zipWith Keyframe.mk P T) ∧
    (∀ t, (ofLists P T).entries.filter (·.timeHns = t) =
      (List.zipWith Keyframe.mk P T).filter (·.timeHns = t)) ∧
    ∀ t, ((ofLists P T).lookup t = none ↔ (ofLists P T).entries = []) ∧
      (ofLists P T).lookup t =
        ((ofLists P T).entries.filter (·.timeHns ≤ t)).getLast?.or (ofLists P T).entries.head? := by
  refine ⟨?_, ?_, ?_, fun t => ?_,
    fun t => ⟨lookup_eq_none_iff _ t, lookup_of_sorted (sorted_ofLists P T) t⟩⟩
  · rw [entries_ofLists, List.length_mergeSort, List.length_zipWith]
  · exact (sorted_ofLists P T).map _ (fun _ _ h => h)
  · rw [entries_ofLists]
    exact List.mergeSort_perm _ _
  · rw [entries_ofLists, filter_time_mergeSort]

end KeyframeIndex

end FlvDemux.Script
