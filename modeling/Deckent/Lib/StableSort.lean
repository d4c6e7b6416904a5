import Mathlib.Data.List.Sort

/-!
# Sorting with a comparator function

A comparator returns a negative, zero or positive integer. When it is consistent, that is, when
`cmp a b ≤ 0` is a total preorder, there is one sorted list that keeps equal members in their old
order, and insertion sort computes it. What callers ask of a sorted list is mostly its first member:
`head?_sortBy_iff` says that this is the leftmost of the least members.
-/

namespace Deckent

variable {α : Type*}

/-- A comparator that orders its arguments like a total preorder. -/
structure ConsistentComparator (cmp : α → α → Int) : Prop where
  total : ∀ a b, cmp a b ≤ 0 ∨ cmp b a ≤ 0
  trans : ∀ a b c, cmp a b ≤ 0 → cmp b c ≤ 0 → cmp a c ≤ 0

/-- `list.sort(cmp)`, which is stable. -/
def sortBy (cmp : α → α → Int) (list : List α) : List α :=
  list.insertionSort fun a b => cmp a b ≤ 0

/-- `first || second`, the chaining of two comparisons. -/
def thenBy (first second : Int) : Int :=
  if first ≠ 0 then first else second

theorem thenBy_nonpos {first second : Int} :
    thenBy first second ≤ 0 ↔ first < 0 ∨ first = 0 ∧ second ≤ 0 := by
  unfold thenBy
  by_cases hfirst : first = 0
  · simp [hfirst]
  · rw [if_pos hfirst]
    omega

theorem thenBy_eq_zero {first second : Int} : thenBy first second = 0 ↔ first = 0 ∧ second = 0 := by
  unfold thenBy
  split <;> omega

theorem perm_sortBy (cmp : α → α → Int) (list : List α) : (sortBy cmp list).Perm list :=
  List.perm_insertionSort _ list

@[simp]
theorem mem_sortBy {cmp : α → α → Int} {list : List α} {x : α} :
    x ∈ sortBy cmp list ↔ x ∈ list :=
  (perm_sortBy cmp list).mem_iff

@[simp]
theorem nodup_sortBy {cmp : α → α → Int} {list : List α} :
    (sortBy cmp list).Nodup ↔ list.Nodup :=
  (perm_sortBy cmp list).nodup_iff

@[simp]
theorem length_sortBy (cmp : α → α → Int) (list : List α) :
    (sortBy cmp list).length = list.length :=
  (perm_sortBy cmp list).length_eq

theorem sortBy_eq_self {cmp : α → α → Int} {list : List α}
    (hsorted : list.Pairwise fun a b => cmp a b ≤ 0) : sortBy cmp list = list :=
  hsorted.insertionSort_eq

theorem sortBy_map {β : Type*} {cmp : β → β → Int} (f : α → β) (list : List α) :
    sortBy cmp (list.map f) = (sortBy (fun a b => cmp (f a) (f b)) list).map f :=
  (List.map_insertionSort _ _ f list fun _ _ _ _ => Iff.rfl).symm

theorem sortBy_congr {cmp cmp' : α → α → Int} {list : List α}
    (hagree : ∀ a ∈ list, ∀ b ∈ list, cmp a b = cmp' a b) : sortBy cmp list = sortBy cmp' list := by
  have hmap := List.map_insertionSort (fun a b => cmp a b ≤ 0) (fun a b => cmp' a b ≤ 0) id list
    fun a ha b hb => by rw [hagree a ha b hb, id, id]
  simpa [sortBy] using hmap

namespace ConsistentComparator

variable {cmp : α → α → Int}

theorem refl (h : ConsistentComparator cmp) (a : α) : cmp a a ≤ 0 :=
  (h.total a a).elim id id

theorem le_of_lt (h : ConsistentComparator cmp) {a b : α} (hlt : 0 < cmp a b) : cmp b a ≤ 0 :=
  (h.total a b).resolve_left (not_le.mpr hlt)

theorem pairwise_sortBy (h : ConsistentComparator cmp) (list : List α) :
    (sortBy cmp list).Pairwise fun a b => cmp a b ≤ 0 := by
  have htotal : Std.Total fun a b => cmp a b ≤ 0 := ⟨h.total⟩
  have htrans : IsTrans α fun a b => cmp a b ≤ 0 := ⟨h.trans⟩
  exact List.pairwise_insertionSort _ list

theorem sortBy_eq_of_perm (h : ConsistentComparator cmp) {left right : List α}
    (hperm : left.Perm right)
    (hstrict : ∀ a ∈ left, ∀ b ∈ left, cmp a b ≤ 0 → cmp b a ≤ 0 → a = b) :
    sortBy cmp left = sortBy cmp right := by
  refine List.Perm.eq_of_pairwise ?_ (h.pairwise_sortBy left)
    (h.pairwise_sortBy right) (((perm_sortBy cmp left).trans hperm).trans (perm_sortBy cmp right).symm)
  intro a b ha hb hab hba
  rw [mem_sortBy] at ha hb
  exact hstrict a ha b (hperm.mem_iff.mpr hb) hab hba

theorem filter_orderedInsert (h : ConsistentComparator cmp) (keep : α → Bool) (a : α) {list : List α}
    (hsorted : list.Pairwise fun a b => cmp a b ≤ 0) :
    (list.orderedInsert (fun a b => cmp a b ≤ 0) a).filter keep
      = if keep a then (list.filter keep).orderedInsert (fun a b => cmp a b ≤ 0) a
        else list.filter keep := by
  induction list with
  | nil => cases hkeep : keep a <;> simp [hkeep]
  | cons b rest ih =>
      obtain ⟨hb, hrest⟩ := List.pairwise_cons.mp hsorted
      by_cases hab : cmp a b ≤ 0
      · rw [List.orderedInsert_cons, if_pos hab]
        cases hkeep : keep a with
        | false => rw [List.filter_cons_of_neg (by simp [hkeep]), if_neg (by simp)]
        | true =>
            rw [List.filter_cons_of_pos hkeep, if_pos rfl]
            cases hfilter : (b :: rest).filter keep with
            | nil => rfl
            | cons c kept =>
                have hc : c ∈ b :: rest :=
                  List.mem_of_mem_filter (hfilter ▸ List.mem_cons_self : c ∈ (b :: rest).filter keep)
                have hac : cmp a c ≤ 0 := by
                  rcases List.mem_cons.mp hc with rfl | hc
                  · exact hab
                  · exact h.trans a b c hab (hb c hc)
                rw [List.orderedInsert_cons, if_pos hac]
      · rw [List.orderedInsert_cons, if_neg hab]
        cases hkeep : keep b with
        | false =>
            rw [List.filter_cons_of_neg (by simp [hkeep]), List.filter_cons_of_neg (by simp [hkeep]),
              ih hrest]
        | true =>
            rw [List.filter_cons_of_pos hkeep, List.filter_cons_of_pos hkeep, ih hrest]
            split
            · rw [List.orderedInsert_cons, if_neg hab]
            · rfl

theorem filter_sortBy (h : ConsistentComparator cmp) (keep : α → Bool) (list : List α) :
    (sortBy cmp list).filter keep = sortBy cmp (list.filter keep) := by
  induction list with
  | nil => rfl
  | cons a rest ih =>
      have hcons : sortBy cmp (a :: rest)
          = (sortBy cmp rest).orderedInsert (fun a b => cmp a b ≤ 0) a :=
        List.insertionSort_cons _ a rest
      rw [hcons, h.filter_orderedInsert keep a (h.pairwise_sortBy rest), ih, List.filter_cons]
      split
      · exact (List.insertionSort_cons _ a _).symm
      · rfl

theorem sortBy_sortBy (h : ConsistentComparator cmp) (list : List α) :
    sortBy cmp (sortBy cmp list) = sortBy cmp list := by
  have htotal : Std.Total fun a b => cmp a b ≤ 0 := ⟨h.total⟩
  have htrans : IsTrans α fun a b => cmp a b ≤ 0 := ⟨h.trans⟩
  exact (h.pairwise_sortBy list).insertionSort_eq

end ConsistentComparator

/-! ### Comparators whose sign turns with their arguments -/

/-- A consistent comparator whose sign turns when its arguments are exchanged. -/
structure SignedComparator (cmp : α → α → Int) : Prop where
  swap : ∀ a b, cmp a b < 0 ↔ 0 < cmp b a
  trans : ∀ a b c, cmp a b ≤ 0 → cmp b c ≤ 0 → cmp a c ≤ 0

namespace SignedComparator

variable {cmp : α → α → Int}

theorem consistent (h : SignedComparator cmp) : ConsistentComparator cmp where
  total a b := by
    have hswap := h.swap b a
    omega
  trans := h.trans

theorem lt_of_lt_of_le (h : SignedComparator cmp) {a b c : α} (hab : cmp a b < 0)
    (hbc : cmp b c ≤ 0) : cmp a c < 0 := by
  by_contra hac
  have hca : cmp c a ≤ 0 := by
    have hswap := h.swap a c
    have hswap' := h.swap c a
    omega
  exact absurd (h.trans b c a hbc hca) (not_le.mpr ((h.swap a b).mp hab))

theorem lt_of_le_of_lt (h : SignedComparator cmp) {a b c : α} (hab : cmp a b ≤ 0)
    (hbc : cmp b c < 0) : cmp a c < 0 := by
  by_contra hac
  have hca : cmp c a ≤ 0 := by
    have hswap := h.swap a c
    have hswap' := h.swap c a
    omega
  exact absurd (h.trans c a b hca hab) (not_le.mpr ((h.swap b c).mp hbc))

theorem comap {β : Type*} (h : SignedComparator cmp) (f : β → α) :
    SignedComparator fun a b => cmp (f a) (f b) :=
  ⟨fun a b => h.swap (f a) (f b), fun a b c => h.trans (f a) (f b) (f c)⟩

/-- Chaining two such comparators gives one. -/
theorem thenBy {first second : α → α → Int} (hfirst : SignedComparator first)
    (hsecond : SignedComparator second) :
    SignedComparator fun a b => thenBy (first a b) (second a b) where
  swap a b := by
    have hab := hfirst.swap a b
    have hba := hfirst.swap b a
    have hsecond := hsecond.swap a b
    simp only [Deckent.thenBy]
    split <;> split <;> omega
  trans a b c hab hbc := by
    rw [thenBy_nonpos] at hab hbc ⊢
    rcases hab with hab | ⟨hab, hab'⟩
    · refine Or.inl (hfirst.lt_of_lt_of_le hab ?_)
      omega
    · rcases hbc with hbc | ⟨hbc, hbc'⟩
      · exact Or.inl (hfirst.lt_of_le_of_lt (le_of_eq hab) hbc)
      · have hac : first a c ≤ 0 := hfirst.trans a b c (le_of_eq hab) (le_of_eq hbc)
        rcases lt_or_eq_of_le hac with hac | hac
        · exact Or.inl hac
        · exact Or.inr ⟨hac, hsecond.trans a b c hab' hbc'⟩

end SignedComparator

/-! ### The first member of a sorted list -/

def IsFirstMin (cmp : α → α → Int) (list : List α) (m : α) : Prop :=
  ∃ before after, list = before ++ m :: after
    ∧ (∀ x ∈ before, 0 < cmp x m) ∧ ∀ x ∈ after, cmp m x ≤ 0

theorem IsFirstMin.mem {cmp : α → α → Int} {list : List α} {m : α} (h : IsFirstMin cmp list m) :
    m ∈ list := by
  obtain ⟨before, after, rfl, -, -⟩ := h
  simp

theorem head?_sortBy_cons (cmp : α → α → Int) (a : α) (list : List α) :
    (sortBy cmp (a :: list)).head?
      = match (sortBy cmp list).head? with
        | none => some a
        | some b => if cmp a b ≤ 0 then some a else some b := by
  have hcons : sortBy cmp (a :: list) = (sortBy cmp list).orderedInsert (fun a b => cmp a b ≤ 0) a :=
    List.insertionSort_cons _ a list
  rw [hcons]
  cases sortBy cmp list with
  | nil => rfl
  | cons b rest =>
      rw [List.orderedInsert_cons]
      split <;> simp_all

theorem ConsistentComparator.isFirstMin_of_head? {cmp : α → α → Int} (h : ConsistentComparator cmp)
    {list : List α} {m : α} (hhead : (sortBy cmp list).head? = some m) : IsFirstMin cmp list m := by
  induction list generalizing m with
  | nil => simp [sortBy] at hhead
  | cons a rest ih =>
      rw [head?_sortBy_cons] at hhead
      cases hrest : (sortBy cmp rest).head? with
      | none =>
          rw [hrest] at hhead
          obtain rfl : a = m := by simpa using hhead
          have hnil : rest = [] := by
            rw [List.head?_eq_none_iff] at hrest
            exact List.length_eq_zero_iff.mp (by rw [← length_sortBy cmp, hrest, List.length_nil])
          exact ⟨[], [], by rw [hnil]; rfl, by simp, by simp⟩
      | some b =>
          obtain ⟨before, after, hsplit, hbefore, hafter⟩ := ih hrest
          simp only [hrest] at hhead
          split at hhead
          · next hab =>
              obtain rfl : a = m := by simpa using hhead
              refine ⟨[], rest, rfl, by simp, ?_⟩
              intro x hx
              rw [hsplit, List.mem_append, List.mem_cons] at hx
              rcases hx with hx | rfl | hx
              · exact h.trans _ _ _ hab (h.le_of_lt (hbefore x hx))
              · exact hab
              · exact h.trans _ _ _ hab (hafter x hx)
          · next hab =>
              obtain rfl : b = m := by simpa using hhead
              refine ⟨a :: before, after, by rw [hsplit]; rfl, ?_, hafter⟩
              intro x hx
              rcases List.mem_cons.mp hx with rfl | hx
              · exact not_le.mp hab
              · exact hbefore x hx

theorem IsFirstMin.head?_sortBy {cmp : α → α → Int} {list : List α} {m : α}
    (hmin : IsFirstMin cmp list m) (h : ConsistentComparator cmp) :
    (sortBy cmp list).head? = some m := by
  obtain ⟨before, after, rfl, hbefore, hafter⟩ := hmin
  induction before with
  | nil =>
      rw [List.nil_append, head?_sortBy_cons]
      cases hrest : (sortBy cmp after).head? with
      | none => rfl
      | some b =>
          have hb : b ∈ after := (h.isFirstMin_of_head? hrest).mem
          simp [hafter b hb]
  | cons a before ih =>
      rw [List.cons_append, head?_sortBy_cons, ih fun x hx => hbefore x (by simp [hx])]
      have ha : ¬ cmp a m ≤ 0 := not_le.mpr (hbefore a (by simp))
      simp [ha]

theorem ConsistentComparator.head?_sortBy_iff {cmp : α → α → Int} (h : ConsistentComparator cmp)
    {list : List α} {m : α} : (sortBy cmp list).head? = some m ↔ IsFirstMin cmp list m :=
  ⟨h.isFirstMin_of_head?, fun hmin => hmin.head?_sortBy h⟩

theorem ConsistentComparator.exists_head?_le {cmp : α → α → Int} (h : ConsistentComparator cmp)
    {list : List α} {x : α} (hx : x ∈ list) :
    ∃ m ∈ (sortBy cmp list).head?, m ∈ list ∧ cmp m x ≤ 0 := by
  cases hhead : (sortBy cmp list).head? with
  | none =>
      rw [List.head?_eq_none_iff] at hhead
      have hmem : x ∈ sortBy cmp list := mem_sortBy.mpr hx
      rw [hhead] at hmem
      cases hmem
  | some m =>
      have hmin := h.isFirstMin_of_head? hhead
      refine ⟨m, rfl, hmin.mem, ?_⟩
      obtain ⟨before, after, rfl, hbefore, hafter⟩ := hmin
      obtain hx | rfl | hx : x ∈ before ∨ x = m ∨ x ∈ after := by simpa using hx
      · exact h.le_of_lt (hbefore x hx)
      · exact h.refl x
      · exact hafter x hx

theorem ConsistentComparator.head?_sortBy_insert [DecidableEq α] {cmp : α → α → Int}
    (h : ConsistentComparator cmp) {before after : List α} {x : α} (hx : x ∉ before ++ after)
    (hfirst : ¬ IsFirstMin cmp (before ++ x :: after) x) :
    (sortBy cmp (before ++ x :: after)).head? = (sortBy cmp (before ++ after)).head? := by
  have hkept : (before ++ after).filter (· ≠ x) = before ++ after := by
    refine List.filter_eq_self.mpr fun a ha => decide_eq_true ?_
    rintro rfl
    exact hx ha
  have hfilter : (before ++ x :: after).filter (· ≠ x) = before ++ after := by
    rw [List.filter_append, List.filter_cons_of_neg (by simp), ← List.filter_append, hkept]
  rw [← hfilter, ← h.filter_sortBy]
  cases hsorted : sortBy cmp (before ++ x :: after) with
  | nil => rfl
  | cons m rest =>
      have hm : m ≠ x := by
        rintro rfl
        exact hfirst (h.isFirstMin_of_head? (by rw [hsorted, List.head?_cons]))
      rw [List.filter_cons_of_pos (by simpa using hm), List.head?_cons, List.head?_cons]

theorem ConsistentComparator.head?_sortBy_of_descending {cmp : α → α → Int}
    (h : ConsistentComparator cmp) {list : List α}
    (hdescending : list.Pairwise fun a b => 0 < cmp a b) :
    (sortBy cmp list).head? = list.getLast? := by
  rcases List.eq_nil_or_concat list with rfl | ⟨before, last, rfl⟩
  · rfl
  · rw [List.concat_eq_append] at hdescending ⊢
    rw [List.getLast?_concat]
    refine IsFirstMin.head?_sortBy ⟨before, [], rfl, ?_, by simp⟩ h
    intro x hx
    exact (List.pairwise_append.mp hdescending).2.2 x hx last (List.mem_singleton_self last)

end Deckent
