import Mathlib.Data.List.Sort

namespace UefiMount.StableSorting

/-!
# Stable sorting by a key

A list sorted by a key that is taken from a linear order, as `list.sort` does
it: items with one key keep the order that they came in.  The result is the
same for every order of the input exactly when no two different items share a
key.
-/

variable {Item Key : Type} [LinearOrder Key]

/-- Sort by a key, stably. -/
def sortBy (key : Item → Key) (items : List Item) : List Item :=
  items.mergeSort fun left right => decide (key left ≤ key right)

theorem sortBy_perm (key : Item → Key) (items : List Item) :
    (sortBy key items).Perm items :=
  List.mergeSort_perm items _

@[simp]
theorem mem_sortBy
    {key : Item → Key}
    {items : List Item}
    {item : Item} :
    item ∈ sortBy key items ↔ item ∈ items :=
  (sortBy_perm key items).mem_iff

section Order

variable (key : Item → Key)

theorem sortBy_trans
    (first second third : Item)
    (left : decide (key first ≤ key second) = true)
    (right : decide (key second ≤ key third) = true) :
    decide (key first ≤ key third) = true := by
  simp only [decide_eq_true_eq] at left right ⊢
  exact le_trans left right

theorem sortBy_total (first second : Item) :
    (decide (key first ≤ key second) ||
      decide (key second ≤ key first)) = true := by
  simp only [Bool.or_eq_true, decide_eq_true_eq]
  exact le_total (key first) (key second)

/-- The result is in the order of the keys. -/
theorem sortBy_ordered (items : List Item) :
    (sortBy key items).Pairwise fun left right => key left ≤ key right := by
  have ordered :=
    List.pairwise_mergeSort (sortBy_trans key) (sortBy_total key) items
  exact ordered.imp fun below => of_decide_eq_true below

/-- Items with one key stay in the order that they came in. -/
theorem filter_sortBy [DecidableEq Key] (shared : Key) (items : List Item) :
    (sortBy key items).filter (key · = shared) =
      items.filter (key · = shared) := by
  have ties :
      (items.filter (key · = shared)).Pairwise fun left right =>
        decide (key left ≤ key right) = true := by
    refine List.pairwise_of_forall_mem_list fun left leftIn right rightIn => ?_
    have leftKey := (List.mem_filter.mp leftIn).2
    have rightKey := (List.mem_filter.mp rightIn).2
    simp only [decide_eq_true_eq] at leftKey rightKey ⊢
    rw [leftKey, rightKey]
  have kept :
      (items.filter (key · = shared)).Sublist (sortBy key items) :=
    List.sublist_mergeSort (sortBy_trans key) (sortBy_total key) ties
      List.filter_sublist
  have twice := kept.filter (key · = shared)
  rw [List.filter_filter] at twice
  simp only [Bool.and_self] at twice
  exact (twice.eq_of_length
    ((sortBy_perm key items).filter _).length_eq.symm).symm

end Order

/-- Different keys: every order of the input gives the same result. -/
theorem sortBy_eq_of_perm
    {key : Item → Key}
    {items others : List Item}
    (distinct : (items.map key).Nodup)
    (permuted : others.Perm items) :
    sortBy key others = sortBy key items := by
  have together : (sortBy key others).Perm (sortBy key items) :=
    (sortBy_perm key others).trans
      (permuted.trans (sortBy_perm key items).symm)
  refine together.eq_of_pairwise ?_ (sortBy_ordered key others)
    (sortBy_ordered key items)
  intro first second firstIn secondIn below above
  have sameKey : key first = key second := le_antisymm below above
  have inFirst : first ∈ items := by
    have inOthers := mem_sortBy.mp firstIn
    exact permuted.mem_iff.mp inOthers
  exact List.inj_on_of_nodup_map distinct inFirst
    (mem_sortBy.mp secondIn) sameKey

/-- Exchanging two different items in front shows when they tie. -/
theorem eq_of_sortBy_swap
    [DecidableEq Key]
    {key : Item → Key}
    {first second : Item}
    {rest : List Item}
    (same :
      sortBy key (first :: second :: rest) =
        sortBy key (second :: first :: rest))
    (tie : key first = key second) :
    first = second := by
  have stable := congrArg (List.filter (key · = key first)) same
  rw [filter_sortBy, filter_sortBy] at stable
  simp only [tie, decide_true, List.filter_cons_of_pos,
    List.cons.injEq] at stable
  exact stable.1

end UefiMount.StableSorting
