import Mathlib.Order.Lattice

namespace ManifestCV.Foundation.Paging

variable {α K : Type} [LinearOrder K]

/-- The rows by descending key; which of two rows with one key comes first is open. -/
structure Arranges (key : α → K) (rows order : List α) : Prop where
  perm : order.Perm rows
  sorted : order.Pairwise fun a b => key b ≤ key a

def page (limit : Nat) (order : List α) (i : Nat) : List α := (order.drop (i * limit)).take limit

def fetchPages (limit : Nat) (orders : Nat → List α) : Nat → Nat → Option (List α)
  | 0, _ => none
  | fuel + 1, i =>
    if (page limit (orders i) i).length < limit then some (page limit (orders i) i)
    else (fetchPages limit orders fuel (i + 1)).map (page limit (orders i) i ++ ·)

def ListsOnce (key : α → K) (rows : List α) (limit : Nat) : Prop :=
  ∀ orders : Nat → List α, (∀ i, Arranges key rows (orders i)) → ∀ fuel > rows.length,
    ∃ all, fetchPages limit orders fuel 0 = some all ∧ all.Perm rows

/-- A boundary after `m` rows has rows with the key `k` on both sides. -/
def Splits (key : α → K) (rows : List α) (m : Nat) (k : K) : Prop :=
  rows.countP (k < key ·) < m ∧ m < rows.countP (k ≤ key ·)

section Positions

variable {key : α → K} {rows order : List α}

theorem length_page (limit : Nat) (order : List α) (i : Nat) :
    (page limit order i).length = min limit (order.length - i * limit) := by
  rw [page, List.length_take, List.length_drop]

theorem take_page (limit : Nat) (order : List α) (i : Nat) :
    order.take (i * limit) ++ page limit order i = order.take ((i + 1) * limit) := by
  rw [page, Nat.add_mul, Nat.one_mul, List.take_add]

theorem key_antitone (sorted : order.Pairwise fun a b => key b ≤ key a) {p q : Nat}
    (inside : q < order.length) (upTo : p ≤ q) :
    key order[q] ≤ key order[p] := by
  rcases Nat.eq_or_lt_of_le upTo with rfl | before
  · exact le_refl _
  · exact List.pairwise_iff_getElem.mp sorted p q _ inside before

theorem countP_cut (good : α → Bool) (order : List α) (p : Nat) :
    order.countP good = (order.take p).countP good + (order.drop p).countP good := by
  rw [← List.countP_append, List.take_append_drop]

/-- What holds from some key on up holds of as many rows as stand before the first that lacks it. -/
theorem lt_countP_iff (sorted : order.Pairwise fun a b => key b ≤ key a) {good : K → Bool}
    (upward : ∀ low high, low ≤ high → good low = true → good high = true) {p : Nat}
      (inside : p < order.length) :
    p < order.countP (good <| key ·) ↔ good (key order[p]) = true := by
  constructor
  · intro counted
    by_contra lacks
    have nothing : (order.drop p).countP (good <| key ·) = 0 := by
      rw [List.countP_eq_zero]
      intro row member
      obtain ⟨q, bound, rfl⟩ := List.mem_drop_iff_getElem.mp member
      simp only [Nat.add_comm p q]
      intro has
      exact lacks (upward _ _ (key_antitone sorted bound (Nat.le_add_left p q)) has)
    have few : (order.take p).countP (good <| key ·) ≤ (order.take p).length := List.countP_le_length
    rw [countP_cut _ order p, nothing] at counted
    rw [List.length_take] at few
    omega
  · intro has
    have all : (order.take (p + 1)).countP (good <| key ·) = (order.take (p + 1)).length := by
      rw [List.countP_eq_length]
      intro row member
      obtain ⟨q, bound, rfl⟩ := List.mem_take_iff_getElem.mp member
      exact upward _ _ (key_antitone sorted inside (by omega)) has
    rw [countP_cut _ order (p + 1), all, List.length_take]
    omega

theorem lt_above_iff (sorted : order.Pairwise fun a b => key b ≤ key a) (k : K) {p : Nat}
    (inside : p < order.length) :
    p < order.countP (k < key ·) ↔ k < key order[p] := by
  have upward : ∀ low high, low ≤ high → decide (k < low) = true → decide (k < high) = true := by
    intro low high upTo above
    exact decide_eq_true (lt_of_lt_of_le (of_decide_eq_true above) upTo)
  exact (lt_countP_iff sorted upward inside).trans decide_eq_true_iff

theorem lt_atLeast_iff (sorted : order.Pairwise fun a b => key b ≤ key a) (k : K) {p : Nat}
    (inside : p < order.length) :
    p < order.countP (k ≤ key ·) ↔ k ≤ key order[p] := by
  have upward : ∀ low high, low ≤ high → decide (k ≤ low) = true → decide (k ≤ high) = true := by
    intro low high upTo above
    exact decide_eq_true (le_trans (of_decide_eq_true above) upTo)
  exact (lt_countP_iff sorted upward inside).trans decide_eq_true_iff

/-- Where no row's key is on both sides of a boundary, every order has the same rows before it. -/
theorem take_eq_filter (arranged : Arranges key rows order) {m : Nat}
    (whole : ∀ row ∈ rows, ¬ Splits key rows m (key row)) :
    order.take m = order.filter fun row => rows.countP (key row < key ·) < m := by
  have before : ∀ row ∈ order.take m, decide (rows.countP (key row < key ·) < m) = true := by
    intro row member
    obtain ⟨p, bound, rfl⟩ := List.mem_take_iff_getElem.mp member
    have inside : p < order.length := by omega
    have few := mt (lt_above_iff arranged.sorted (key order[p]) inside).mp (lt_irrefl _)
    rw [arranged.perm.countP_eq] at few
    apply decide_eq_true
    omega
  have behind : ∀ row ∈ order.drop m, ¬ decide (rows.countP (key row < key ·) < m) = true := by
    intro row member
    obtain ⟨q, bound, rfl⟩ := List.mem_drop_iff_getElem.mp member
    simp only [Nat.add_comm m q]
    have many := (lt_atLeast_iff arranged.sorted (key order[q + m]) bound).mpr (le_refl _)
    rw [arranged.perm.countP_eq] at many
    intro early
    apply whole order[q + m] (arranged.perm.mem_iff.mp (List.getElem_mem bound))
    exact ⟨of_decide_eq_true early, by omega⟩
  conv => rhs; rw [← List.take_append_drop m order]
  rw [List.filter_append, List.filter_eq_self.mpr before, List.filter_eq_nil_iff.mpr behind, List.append_nil]

theorem take_perm {other : List α} (arranged : Arranges key rows order) (again : Arranges key rows other)
    {m : Nat} (whole : ∀ row ∈ rows, ¬ Splits key rows m (key row)) : (order.take m).Perm (other.take m) := by
  rw [take_eq_filter arranged whole, take_eq_filter again whole]
  exact (arranged.perm.trans again.perm.symm).filter _

/-- A boundary that a key is on both sides of lies between two neighbours with that key. -/
theorem Splits.neighbours {m : Nat} {k : K} (split : Splits key rows m k)
    (arranged : Arranges key rows order) :
    ∃ above a b below, order = above ++ a :: b :: below ∧ m = above.length + 1 ∧ key a = key b := by
  obtain ⟨low, high⟩ := split
  rw [← arranged.perm.countP_eq] at low high
  have short : order.countP (k ≤ key ·) ≤ order.length := List.countP_le_length
  have tied : ∀ p, (inside : p < order.length) → order.countP (k < key ·) ≤ p → p < order.countP (k ≤ key ·) →
      key order[p] = k := by
    intro p inside least most
    apply le_antisymm
    · exact not_lt.mp (mt (lt_above_iff arranged.sorted k inside).mpr (by omega))
    · exact (lt_atLeast_iff arranged.sorted k inside).mp most
  have first : m - 1 < order.length := by omega
  have second : m < order.length := by omega
  refine ⟨order.take (m - 1), order[m - 1], order[m], order.drop (m + 1), ?_, ?_, ?_⟩
  · have next : m - 1 + 1 = m := by omega
    conv => lhs; rw [← List.take_append_drop (m - 1) order]
    rw [List.drop_eq_getElem_cons first]
    simp only [next]
    rw [List.drop_eq_getElem_cons second]
  · rw [List.length_take]
    omega
  · rw [tied (m - 1) first (by omega) (by omega), tied m second (by omega) high]

end Positions

section Fetching

variable {key : α → K} {rows : List α} {limit : Nat} {orders : Nat → List α}

theorem fetchPages_perm (positive : 1 ≤ limit) (arranged : ∀ i, Arranges key rows (orders i))
    (whole : ∀ i, ∀ row ∈ rows, ¬ Splits key rows (i * limit) (key row)) {fuel i : Nat}
    (reached : i * limit ≤ rows.length) (enough : rows.length < fuel + i) :
    ∃ all, fetchPages limit orders fuel i = some all ∧ ((orders i).take (i * limit) ++ all).Perm rows := by
  have pages : i ≤ i * limit := Nat.le_mul_of_pos_right i positive
  induction fuel generalizing i with
  | zero => omega
  | succ fuel ih =>
    have length := (arranged i).perm.length_eq
    have size := length_page limit (orders i) i
    rw [fetchPages]
    by_cases short : (page limit (orders i) i).length < limit
    · rw [if_pos short]
      refine ⟨_, rfl, ?_⟩
      have rest : page limit (orders i) i = (orders i).drop (i * limit) := by
        rw [page, List.take_of_length_le]
        rw [List.length_drop]
        omega
      rw [rest, List.take_append_drop]
      exact (arranged i).perm
    · rw [if_neg short]
      have next : (i + 1) * limit = i * limit + limit := by rw [Nat.add_mul, Nat.one_mul]
      obtain ⟨all, fetched, together⟩ := @ih (i + 1) (by omega) (by omega) (by omega)
      refine ⟨_, by rw [fetched, Option.map_some], ?_⟩
      rw [← List.append_assoc, take_page]
      exact ((take_perm (arranged i) (arranged (i + 1)) (whole (i + 1))).append_right all).trans together

theorem fetchPages_const (positive : 1 ≤ limit) {order : List α} {fuel i : Nat}
    (agree : ∀ j ≥ i, orders j = order) (reached : i * limit ≤ order.length)
    (enough : order.length < fuel + i) :
    fetchPages limit orders fuel i = some (order.drop (i * limit)) := by
  have pages : i ≤ i * limit := Nat.le_mul_of_pos_right i positive
  induction fuel generalizing i with
  | zero => omega
  | succ fuel ih =>
    have size := length_page limit order i
    rw [fetchPages, agree i (Nat.le_refl i)]
    by_cases short : (page limit order i).length < limit
    · rw [if_pos short, page, List.take_of_length_le]
      rw [List.length_drop]
      omega
    · rw [if_neg short]
      have next : (i + 1) * limit = i * limit + limit := by rw [Nat.add_mul, Nat.one_mul]
      rw [@ih (i + 1) (fun j later => agree j (by omega)) (by omega) (by omega) (by omega), Option.map_some,
        page, next,
        ← List.drop_drop, List.take_append_drop]

def switching (k : Nat) (first second : List α) (i : Nat) : List α := if i < k then first else second

theorem fetchPages_switching (positive : 1 ≤ limit) {first second : List α} {k : Nat}
    (same : first.length = second.length) (reached : k * limit ≤ first.length) {fuel i : Nat} (upTo : i ≤ k)
    (enough : first.length < fuel + i) :
    fetchPages limit (switching k first second) fuel i =
      some ((first.take (k * limit)).drop (i * limit) ++ second.drop (k * limit)) := by
  have late : ∀ j ≥ k, switching k first second j = second := fun j after => if_neg (Nat.not_lt.mpr after)
  have early : ∀ j < k, switching k first second j = first := fun j before => if_pos before
  have pages : k ≤ k * limit := Nat.le_mul_of_pos_right k positive
  induction fuel generalizing i with
  | zero => omega
  | succ fuel ih =>
    rcases Nat.eq_or_lt_of_le upTo with rfl | before
    · have nothing : (first.take (i * limit)).drop (i * limit) = [] := by
        apply List.drop_eq_nil_of_le
        rw [List.length_take]
        omega
      rw [fetchPages_const positive late (by omega) (by omega), nothing, List.nil_append]
    · have full : (i + 1) * limit ≤ k * limit := Nat.mul_le_mul_right limit before
      have next : (i + 1) * limit = i * limit + limit := by rw [Nat.add_mul, Nat.one_mul]
      have size := length_page limit first i
      have inside : page limit first i = ((first.take (k * limit)).drop (i * limit)).take limit := by
        rw [page, List.drop_take, List.take_take]
        congr 1
        omega
      rw [fetchPages, early i before, if_neg (by omega), @ih (i + 1) (by omega) (by omega), Option.map_some,
        inside, next,
        ← List.append_assoc, ← List.drop_drop, List.take_append_drop]

theorem exists_arrangement (key : α → K) (rows : List α) : ∃ order, Arranges key rows order := by
  refine ⟨rows.mergeSort fun a b => key b ≤ key a, List.mergeSort_perm _ _, ?_⟩
  have transitive : ∀ a b c, decide (key b ≤ key a) = true → decide (key c ≤ key b) = true →
      decide (key c ≤ key a) = true :=
    fun a b c first second => decide_eq_true (le_trans (of_decide_eq_true second) (of_decide_eq_true first))
  have total : ∀ a b, (decide (key b ≤ key a) || decide (key a ≤ key b)) = true := by
    intro a b
    simpa using le_total (key b) (key a)
  exact (List.pairwise_mergeSort transitive total rows).imp of_decide_eq_true

theorem Arranges.swap {above below : List α} {a b : α}
    (arranged : Arranges key rows (above ++ a :: b :: below)) (tied : key a = key b) :
    Arranges key rows (above ++ b :: a :: below) := by
  constructor
  · exact (List.Perm.append_left above (List.Perm.swap a b below)).trans arranged.perm
  · have sorted := arranged.sorted
    simp only [List.pairwise_append, List.pairwise_cons, List.forall_mem_cons, tied] at sorted ⊢
    obtain ⟨first, ⟨⟨_, left⟩, right, rest⟩, across⟩ := sorted
    exact ⟨first, ⟨⟨le_refl _, right⟩, left, rest⟩, fun row member =>
      ⟨(across row member).1, (across row member).1, (across row member).2.2⟩⟩

/-- Paging lists every row once just where no boundary of a page falls between rows with one key. -/
theorem listsOnce_iff (positive : 1 ≤ limit) (distinct : rows.Nodup) :
    ListsOnce key rows limit ↔ ∀ i, ∀ row ∈ rows, ¬ Splits key rows (i * limit) (key row) := by
  constructor
  · intro once k row _ split
    obtain ⟨order, arranged⟩ := exists_arrangement key rows
    obtain ⟨above, a, b, below, rfl, boundary, tied⟩ := split.neighbours arranged
    have swapped := arranged.swap tied
    have either : ∀ i, Arranges key rows
        (switching k (above ++ a :: b :: below) (above ++ b :: a :: below) i) := by
      intro i
      unfold switching
      split
      · exact arranged
      · exact swapped
    obtain ⟨all, fetched, perm⟩ := once _ either (rows.length + 1) (Nat.lt_succ_self _)
    have length := arranged.perm.length_eq
    have equal : (above ++ a :: b :: below).length = (above ++ b :: a :: below).length := by
      simp only [List.length_append, List.length_cons]
    have inside : k * limit ≤ (above ++ a :: b :: below).length := by
      rw [boundary, List.length_append, List.length_cons]
      omega
    have switched := fetchPages_switching positive equal inside (Nat.zero_le k)
      (by omega : (above ++ a :: b :: below).length < rows.length + 1 + 0)
    rw [fetched, boundary, Nat.zero_mul, List.drop_zero, Option.some_inj] at switched
    have front : (above ++ a :: b :: below).take (above.length + 1) = above ++ [a] := by
      rw [List.append_cons]
      exact List.take_left' (by rw [List.length_append, List.length_singleton])
    have back : (above ++ b :: a :: below).drop (above.length + 1) = a :: below := by
      rw [List.append_cons]
      exact List.drop_left' (by rw [List.length_append, List.length_singleton])
    have twice : all = above ++ [a] ++ (a :: below) := by rw [switched, front, back]
    have nodup := perm.nodup_iff.mpr distinct
    rw [twice] at nodup
    exact (List.nodup_append.mp nodup).2.2 a (by simp) a List.mem_cons_self rfl
  · intro whole orders arranged fuel enough
    obtain ⟨all, fetched, perm⟩ :=
      fetchPages_perm positive arranged whole (by omega : 0 * limit ≤ rows.length) enough
    rw [Nat.zero_mul, List.take_zero, List.nil_append] at perm
    exact ⟨all, fetched, perm⟩

theorem listsOnce_of_injective (positive : 1 ≤ limit) (distinct : rows.Nodup)
    (unique : ∀ a ∈ rows, ∀ b ∈ rows, key a = key b → a = b) : ListsOnce key rows limit := by
  rw [listsOnce_iff positive distinct]
  intro i row _ split
  obtain ⟨order, arranged⟩ := exists_arrangement key rows
  obtain ⟨above, a, b, below, rfl, _, tied⟩ := split.neighbours arranged
  have same := unique a (arranged.perm.mem_iff.mp (by simp)) b (arranged.perm.mem_iff.mp (by simp)) tied
  have nodup := arranged.perm.nodup_iff.mpr distinct
  rw [same] at nodup
  exact (List.nodup_cons.mp (List.nodup_append.mp nodup).2.1).1 List.mem_cons_self

end Fetching

end ManifestCV.Foundation.Paging
