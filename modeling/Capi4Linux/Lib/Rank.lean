import Mathlib.Data.List.Nodup
import Mathlib.Data.List.Perm.Subperm
import Mathlib.Order.Lattice

/-!
# Ranks

The place of an element in a list that increases by a key, as the number of
elements below it. A list that is read in pieces by position, while it changes,
is followed by the ranks of its elements: what is below an element moves it.
-/

namespace Rank

variable {α β : Type*} [LinearOrder β]

/-- How many elements are below `x`. -/
def rank (key : α → β) (l : List α) (x : α) : Nat := l.countP fun y => decide (key y < key x)

/-- In an increasing list an element stands at its rank. -/
theorem getElem?_rank {key : α → β} {l : List α} {x : α} (sorted : l.Pairwise fun a b => key a < key b) (mem : x ∈ l) :
    l[rank key l x]? = some x := by
  induction l with
  | nil => cases mem
  | cons y l ih =>
    obtain ⟨above, rest⟩ := List.pairwise_cons.1 sorted
    unfold rank at ih ⊢
    rcases List.mem_cons.1 mem with rfl | later
    · have none : (x :: l).countP (fun y => decide (key y < key x)) = 0 := by
        rw [List.countP_eq_zero]
        intro z hz
        rw [decide_eq_true_eq]
        rcases List.mem_cons.1 hz with rfl | behind
        · exact lt_irrefl _
        · exact not_lt_of_gt (above z behind)
      rw [none]
      rfl
    · rw [List.countP_cons, if_pos (decide_eq_true (above x later)), List.getElem?_cons_succ]
      exact ih rest later

/-- What stays below keeps an element from moving down. -/
theorem rank_le {key key' : α → β} {l l' : List α} {x : α} (nodup : l.Nodup)
    (stay : ∀ y ∈ l, key y < key x → y ∈ l' ∧ key' y < key' x) : rank key l x ≤ rank key' l' x := by
  unfold rank
  rw [List.countP_eq_length_filter, List.countP_eq_length_filter]
  refine ((nodup.filter _).subperm fun y hy => ?_).length_le
  obtain ⟨mem, below⟩ := List.mem_filter.1 hy
  obtain ⟨mem', below'⟩ := stay y mem (of_decide_eq_true below)
  exact List.mem_filter.2 ⟨mem', decide_eq_true below'⟩

/-- A piece of a list holds the elements whose places are in it. -/
theorem mem_piece_iff {l : List α} {x : α} {k i n : Nat} (nodup : l.Nodup) (at_k : l[k]? = some x) :
    x ∈ (l.drop i).take n ↔ i ≤ k ∧ k < i + n := by
  obtain ⟨bound, rfl⟩ := List.getElem?_eq_some_iff.1 at_k
  rw [List.mem_iff_getElem?]
  constructor
  · rintro ⟨j, found⟩
    rw [List.getElem?_take] at found
    split at found
    · rw [List.getElem?_drop] at found
      obtain ⟨inside, same⟩ := List.getElem?_eq_some_iff.1 found
      have : i + j = k := nodup.getElem_inj_iff.1 same
      omega
    · cases found
  · rintro ⟨low, high⟩
    refine ⟨k - i, ?_⟩
    rw [List.getElem?_take, if_pos (by omega), List.getElem?_drop, Nat.add_sub_cancel' low, List.getElem?_eq_getElem bound]

/-- A piece reaches past the elements it holds. -/
theorem lt_of_mem_piece {l : List α} {x : α} {k i n : Nat} (nodup : l.Nodup) (at_k : l[k]? = some x)
    (mem : x ∈ (l.drop i).take n) : k < i + ((l.drop i).take n).length := by
  obtain ⟨bound, -⟩ := List.getElem?_eq_some_iff.1 at_k
  obtain ⟨low, high⟩ := (mem_piece_iff nodup at_k).1 mem
  rw [List.length_take, List.length_drop]
  omega

/-- Pieces that follow one another make up the list. -/
theorem take_append_piece (l : List α) (i n : Nat) :
    l.take i ++ (l.drop i).take n = l.take (i + ((l.drop i).take n).length) := by
  have cut : (l.drop i).take n = (l.drop i).take ((l.drop i).take n).length := by
    rw [List.take_eq_take_iff, List.length_take]
    omega
  calc l.take i ++ (l.drop i).take n
      = l.take i ++ (l.drop i).take ((l.drop i).take n).length := by rw [← cut]
    _ = l.take (i + ((l.drop i).take n).length) := List.take_add.symm

end Rank
