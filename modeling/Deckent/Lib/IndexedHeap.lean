import Mathlib.Logic.Function.Basic
import Deckent.Lib.StableSort

/-!
# Binary heaps whose members know their position

A heap is a list in which every member comes after the one at half its position. Each member carries the
position at which it stands, so that it can be removed from the middle. `Indexed` says that what the members
carry is right, from which it follows that none stands twice. Pushing and removing keep this and the order.
-/

namespace Deckent

structure IndexedHeap (α : Type*) where
  items : List α
  index : α → Option Nat

namespace IndexedHeap

variable {α : Type*} [DecidableEq α]

def place (heap : IndexedHeap α) (position : Nat) (x : α) : IndexedHeap α where
  items := heap.items.set position x
  index := Function.update heap.index x (some position)

def siftUpFrom (cmp : α → α → Int) (x : α) : IndexedHeap α → Nat → IndexedHeap α
  | heap, 0 => heap.place 0 x
  | heap, position + 1 =>
      match heap.items[position / 2]? with
      | none => heap.place (position + 1) x
      | some above =>
          if cmp above x ≤ 0 then heap.place (position + 1) x
          else siftUpFrom cmp x (heap.place (position + 1) above) (position / 2)
termination_by _ position => position

def siftUp (cmp : α → α → Int) (heap : IndexedHeap α) (start : Nat) : IndexedHeap α :=
  match heap.items[start]? with
  | none => heap
  | some x => siftUpFrom cmp x heap start

def lesserChild (cmp : α → α → Int) (heap : IndexedHeap α) (position : Nat) : Option (Nat × α) :=
  match heap.items[position * 2 + 1]?, heap.items[position * 2 + 2]? with
  | none, _ => none
  | some left, none => some (position * 2 + 1, left)
  | some left, some right =>
      if cmp right left < 0 then some (position * 2 + 2, right) else some (position * 2 + 1, left)

omit [DecidableEq α] in
theorem lesserChild_eq_some {cmp : α → α → Int} {heap : IndexedHeap α} {position child : Nat} {below : α}
    (hchild : heap.lesserChild cmp position = some (child, below)) :
    (child = position * 2 + 1 ∨ child = position * 2 + 2) ∧ heap.items[child]? = some below := by
  unfold lesserChild at hchild
  split at hchild
  · cases hchild
  · next hleft _ =>
      cases hchild
      exact ⟨.inl rfl, hleft⟩
  · next hleft hright =>
      split at hchild
      · cases hchild
        exact ⟨.inr rfl, hright⟩
      · cases hchild
        exact ⟨.inl rfl, hleft⟩

omit [DecidableEq α] in
theorem lesserChild_eq_none {cmp : α → α → Int} {heap : IndexedHeap α} {position other : Nat}
    (hnone : heap.lesserChild cmp position = none) (hother : other = position * 2 ∨ other = position * 2 + 1) :
    heap.items[other + 1]? = none := by
  have hleft : heap.items[position * 2 + 1]? = none := by
    unfold lesserChild at hnone
    split at hnone
    · next hleft => exact hleft
    · cases hnone
    · split at hnone <;> cases hnone
  rw [List.getElem?_eq_none_iff] at hleft ⊢
  omega

omit [DecidableEq α] in
theorem le_of_lesserChild {cmp : α → α → Int} {heap : IndexedHeap α} (hcmp : SignedComparator cmp)
    {position child other : Nat} {below y : α} (hchild : heap.lesserChild cmp position = some (child, below))
    (hother : other / 2 = position) (hy : heap.items[other + 1]? = some y) : cmp below y ≤ 0 := by
  have hcases : other + 1 = position * 2 + 1 ∨ other + 1 = position * 2 + 2 := by omega
  unfold lesserChild at hchild
  split at hchild
  · cases hchild
  · next hleft hright =>
      cases hchild
      obtain heq | heq := hcases <;> rw [heq] at hy
      · cases hleft.symm.trans hy
        exact hcmp.consistent.refl _
      · cases hright.symm.trans hy
  · next hleft hright =>
      split at hchild
      · next hlt =>
          cases hchild
          obtain heq | heq := hcases <;> rw [heq] at hy
          · cases hleft.symm.trans hy
            exact hlt.le
          · cases hright.symm.trans hy
            exact hcmp.consistent.refl _
      · next hle =>
          cases hchild
          obtain heq | heq := hcases <;> rw [heq] at hy
          · cases hleft.symm.trans hy
            exact hcmp.consistent.refl _
          · cases hright.symm.trans hy
            exact not_lt.mp (mt (hcmp.swap _ _).mpr hle)

omit [DecidableEq α] in
theorem lt_of_lesserChild {cmp : α → α → Int} {heap : IndexedHeap α} {position child : Nat} {below : α}
    (hchild : heap.lesserChild cmp position = some (child, below)) :
    position < child ∧ child < heap.items.length := by
  obtain ⟨hposition, hbelow⟩ := lesserChild_eq_some hchild
  obtain ⟨hlt, -⟩ := List.getElem?_eq_some_iff.mp hbelow
  omega

def siftDownFrom (cmp : α → α → Int) (x : α) (heap : IndexedHeap α) (position : Nat) : IndexedHeap α :=
  match _hchild : heap.lesserChild cmp position with
  | none => heap.place position x
  | some (child, below) =>
      if cmp x below ≤ 0 then heap.place position x
      else siftDownFrom cmp x (heap.place position below) child
termination_by heap.items.length - position
decreasing_by
  obtain ⟨hbelow, hlt⟩ := lt_of_lesserChild _hchild
  simp only [place, List.length_set]
  omega

theorem siftDownFrom_eq (cmp : α → α → Int) (x : α) (heap : IndexedHeap α) (position : Nat) :
    siftDownFrom cmp x heap position = match heap.lesserChild cmp position with
      | none => heap.place position x
      | some (child, below) =>
          if cmp x below ≤ 0 then heap.place position x
          else siftDownFrom cmp x (heap.place position below) child := by
  rw [siftDownFrom]
  split <;> simp [*]

def siftDown (cmp : α → α → Int) (heap : IndexedHeap α) (start : Nat) : IndexedHeap α :=
  match heap.items[start]? with
  | none => heap
  | some x => siftDownFrom cmp x heap start

def push (cmp : α → α → Int) (heap : IndexedHeap α) (x : α) : IndexedHeap α :=
  siftUp cmp ⟨heap.items ++ [x], Function.update heap.index x (some heap.items.length)⟩ heap.items.length

def removeAt (cmp : α → α → Int) (heap : IndexedHeap α) (position : Nat) : IndexedHeap α :=
  match heap.items[position]?, heap.items.getLast? with
  | some removed, some last =>
      let popped : IndexedHeap α := ⟨heap.items.dropLast, Function.update heap.index removed none⟩
      if last = removed then popped
      else
        let moved := popped.place position last
        if 0 < position ∧ (moved.items[(position - 1) / 2]?).any (fun above => cmp last above < 0) then
          moved.siftUp cmp position
        else moved.siftDown cmp position
  | _, _ => heap

def remove (cmp : α → α → Int) (heap : IndexedHeap α) (x : α) : IndexedHeap α :=
  match heap.index x with
  | none => heap
  | some position => if heap.items[position]? = some x then heap.removeAt cmp position else heap

/-! ### Lengths -/

@[simp]
theorem length_place (heap : IndexedHeap α) (position : Nat) (x : α) :
    (heap.place position x).items.length = heap.items.length :=
  List.length_set

theorem length_siftUp (cmp : α → α → Int) (heap : IndexedHeap α) (start : Nat) :
    (heap.siftUp cmp start).items.length = heap.items.length := by
  unfold siftUp
  split
  · rfl
  · next x hx =>
      clear hx
      induction heap, start using siftUpFrom.induct cmp x with
      | case1 heap => simp [siftUpFrom]
      | case2 heap position hnone => simp [siftUpFrom, hnone]
      | case3 heap position above habove hle => simp [siftUpFrom, habove, hle]
      | case4 heap position above habove hle ih => simpa [siftUpFrom, habove, hle] using ih

theorem length_siftDown (cmp : α → α → Int) (heap : IndexedHeap α) (start : Nat) :
    (heap.siftDown cmp start).items.length = heap.items.length := by
  unfold siftDown
  split
  · rfl
  · next x hx =>
      clear hx
      induction heap, start using siftDownFrom.induct cmp x with
      | case1 heap position hnone => simp [siftDownFrom_eq, hnone]
      | case2 heap position child below hchild hle => simp [siftDownFrom_eq, hchild, hle]
      | case3 heap position child below hchild hle ih =>
          rw [siftDownFrom_eq, hchild]
          simpa [hle] using ih

theorem length_removeAt_lt (cmp : α → α → Int) {heap : IndexedHeap α} {position : Nat}
    (hlt : position < heap.items.length) : (heap.removeAt cmp position).items.length < heap.items.length := by
  unfold removeAt
  rw [List.getElem?_eq_getElem hlt, List.getLast?_eq_getElem?, List.getElem?_eq_getElem (by omega)]
  dsimp only
  split
  · rw [List.length_dropLast]
    omega
  · split
    · rw [length_siftUp, length_place, List.length_dropLast]
      omega
    · rw [length_siftDown, length_place, List.length_dropLast]
      omega

/-! ### Positions -/

/-- A member carries the position at which it stands, and what is no member carries none. -/
def Indexed (heap : IndexedHeap α) : Prop :=
  ∀ x position, heap.index x = some position ↔ heap.items[position]? = some x

theorem getElem?_place {heap : IndexedHeap α} {position other : Nat} {x : α} (hlt : position < heap.items.length) :
    (heap.place position x).items[other]? = if other = position then some x else heap.items[other]? := by
  unfold place
  rw [List.getElem?_set]
  by_cases heq : position = other
  · subst heq
    simp [hlt]
  · simp [heq, Ne.symm heq]

/-- A member and one of another position change places. -/
def swap (heap : IndexedHeap α) (left : Nat) (x : α) (right : Nat) (y : α) : IndexedHeap α :=
  (heap.place left y).place right x

theorem getElem?_swap {heap : IndexedHeap α} {left right other : Nat} {x y : α} (hleft : heap.items[left]? = some x)
    (hright : heap.items[right]? = some y) :
    (heap.swap left x right y).items[other]?
      = if other = right then some x else if other = left then some y else heap.items[other]? := by
  obtain ⟨hlt, -⟩ := List.getElem?_eq_some_iff.mp hleft
  obtain ⟨hlt', -⟩ := List.getElem?_eq_some_iff.mp hright
  unfold swap
  rw [getElem?_place (by simpa using hlt'), getElem?_place hlt]

theorem Indexed.swap {heap : IndexedHeap α} (hindexed : heap.Indexed) {left right : Nat} {x y : α}
    (hleft : heap.items[left]? = some x) (hright : heap.items[right]? = some y) (hne : left ≠ right) :
    (heap.swap left x right y).Indexed := by
  have hx := (hindexed x left).mpr hleft
  have hy := (hindexed y right).mpr hright
  have hxy : x ≠ y := by
    rintro rfl
    exact hne (Option.some.inj (hx.symm.trans hy))
  intro z position
  have hz := hindexed z position
  rw [getElem?_swap hleft hright]
  unfold IndexedHeap.swap place
  simp only [Function.update_apply]
  split <;> split <;> grind

omit [DecidableEq α] in
theorem Indexed.mem_iff {heap : IndexedHeap α} (hindexed : heap.Indexed) {x : α} :
    x ∈ heap.items ↔ (heap.index x).isSome = true := by
  rw [List.mem_iff_getElem?, Option.isSome_iff_exists]
  exact exists_congr fun position => (hindexed x position).symm

omit [DecidableEq α] in
theorem Indexed.nodup {heap : IndexedHeap α} (hindexed : heap.Indexed) : heap.items.Nodup := by
  refine List.nodup_iff_getElem?_ne_getElem?.mpr fun left right hlt hright heq => ?_
  have hx := List.getElem?_eq_getElem (hlt.trans hright)
  have hleft := (hindexed _ left).mpr hx
  have hother := (hindexed _ right).mpr (heq.symm.trans hx)
  exact absurd (Option.some.inj (hleft.symm.trans hother)) hlt.ne

theorem Indexed.mem_swap {heap : IndexedHeap α} (hindexed : heap.Indexed) {left right : Nat} {x y z : α}
    (hleft : heap.items[left]? = some x) (hright : heap.items[right]? = some y) (hne : left ≠ right) :
    z ∈ (heap.swap left x right y).items ↔ z ∈ heap.items := by
  rw [(hindexed.swap hleft hright hne).mem_iff, hindexed.mem_iff]
  have hx := (hindexed x left).mpr hleft
  have hy := (hindexed y right).mpr hright
  unfold IndexedHeap.swap place
  simp only [Function.update_apply]
  split
  · next heq => simp [heq, hx]
  · split
    · next heq => simp [heq, hy]
    · rfl

theorem place_place (heap : IndexedHeap α) {position : Nat} (other : Nat) (x y : α) :
    (heap.place position y).place other x = ((heap.place position x).place position y).place other x := by
  unfold place
  simp only [List.set_set, mk.injEq, true_and]
  funext z
  simp only [Function.update_apply]
  grind

/-! ### Order -/

section Order

variable {cmp : α → α → Int} {heap : IndexedHeap α}

/-- No member comes before the one above it. -/
def Ordered (cmp : α → α → Int) (heap : IndexedHeap α) : Prop :=
  ∀ position x above, heap.items[position + 1]? = some x → heap.items[position / 2]? = some above →
    cmp above x ≤ 0

structure UpOrdered (cmp : α → α → Int) (heap : IndexedHeap α) (hole : Nat) : Prop where
  pairs : ∀ position x above, position + 1 ≠ hole → heap.items[position + 1]? = some x →
    heap.items[position / 2]? = some above → cmp above x ≤ 0
  around : ∀ position x above, 0 < hole → position / 2 = hole → heap.items[position + 1]? = some x →
    heap.items[(hole - 1) / 2]? = some above → cmp above x ≤ 0

structure DownOrdered (cmp : α → α → Int) (heap : IndexedHeap α) (hole : Nat) : Prop where
  pairs : ∀ position x above, position / 2 ≠ hole → heap.items[position + 1]? = some x →
    heap.items[position / 2]? = some above → cmp above x ≤ 0
  around : ∀ position x above, 0 < hole → position / 2 = hole → heap.items[position + 1]? = some x →
    heap.items[(hole - 1) / 2]? = some above → cmp above x ≤ 0

omit [DecidableEq α] in
theorem UpOrdered.ordered {hole : Nat} (hup : heap.UpOrdered cmp hole)
    (hhole : ∀ position x above, position + 1 = hole → heap.items[position + 1]? = some x →
      heap.items[position / 2]? = some above → cmp above x ≤ 0) : heap.Ordered cmp := by
  intro position x above hx habove
  by_cases heq : position + 1 = hole
  · exact hhole position x above heq hx habove
  · exact hup.pairs position x above heq hx habove

omit [DecidableEq α] in
theorem DownOrdered.ordered {hole : Nat} (hdown : heap.DownOrdered cmp hole)
    (hhole : ∀ position x above, position / 2 = hole → heap.items[position + 1]? = some x →
      heap.items[position / 2]? = some above → cmp above x ≤ 0) : heap.Ordered cmp := by
  intro position x above hx habove
  by_cases heq : position / 2 = hole
  · exact hhole position x above heq hx habove
  · exact hdown.pairs position x above heq hx habove

theorem UpOrdered.swap (hcmp : SignedComparator cmp) {position : Nat} {x above : α}
    (hup : heap.UpOrdered cmp (position + 1)) (hx : heap.items[position + 1]? = some x)
    (habove : heap.items[position / 2]? = some above) (hle : cmp x above ≤ 0) :
    (heap.swap (position + 1) x (position / 2) above).UpOrdered cmp (position / 2) where
  pairs := by
    intro other y higher hother hy hhigher
    rw [getElem?_swap hx habove] at hy hhigher
    rw [if_neg hother] at hy
    split at hy
    · next heq =>
        obtain rfl : other = position := by omega
        rw [if_pos rfl] at hhigher
        cases hy
        cases hhigher
        exact hle
    · next hne =>
        split at hhigher
        · next hparent =>
            cases hhigher
            exact hcmp.trans _ _ _ hle (hup.pairs other y above hne hy (hparent ▸ habove))
        · split at hhigher
          · next hchild =>
              cases hhigher
              exact hup.around other y above (Nat.succ_pos _) hchild hy (by simpa using habove)
          · exact hup.pairs other y higher hne hy hhigher
  around := by
    intro other y higher hpos hparent hy hhigher
    rw [getElem?_swap hx habove] at hy hhigher
    rw [if_neg (by omega)] at hy
    rw [if_neg (by omega), if_neg (by omega)] at hhigher
    obtain ⟨upper, hupper⟩ := Nat.exists_eq_succ_of_ne_zero hpos.ne'
    have hhigher' : heap.items[upper / 2]? = some higher := by simpa [hupper] using hhigher
    have hgrand : cmp higher above ≤ 0 :=
      hup.pairs upper above higher (by omega) (by simpa [hupper] using habove) hhigher'
    split at hy
    · cases hy
      exact hgrand
    · next hne => exact hcmp.trans _ _ _ hgrand (hup.pairs other y above hne hy (hparent ▸ habove))

theorem DownOrdered.swap {position child : Nat} {x below : α}
    (hdown : heap.DownOrdered cmp position) (hx : heap.items[position]? = some x)
    (hchild : child = position * 2 + 1 ∨ child = position * 2 + 2) (hbelow : heap.items[child]? = some below)
    (hle : cmp below x ≤ 0)
    (hleast : ∀ other y, other / 2 = position → heap.items[other + 1]? = some y → cmp below y ≤ 0) :
    (heap.swap position x child below).DownOrdered cmp child where
  pairs := by
    intro other y higher hother hy hhigher
    rw [getElem?_swap hx hbelow] at hy hhigher
    rw [if_neg hother] at hhigher
    split at hhigher
    · next hparent =>
        cases hhigher
        split at hy
        · cases hy
          exact hle
        · rw [if_neg (by omega)] at hy
          exact hleast other y hparent hy
    · next hparent =>
        split at hy
        · omega
        · split at hy
          · next heq =>
              cases hy
              exact hdown.around (child - 1) below higher (by omega) (by omega) (by
                rw [Nat.sub_add_cancel (by omega)]
                exact hbelow) (by rwa [← heq, Nat.add_sub_cancel])
          · exact hdown.pairs other y higher hparent hy hhigher
  around := by
    intro other y higher hpos hparent hy hhigher
    rw [getElem?_swap hx hbelow] at hy hhigher
    rw [if_neg (by omega), if_neg (by omega)] at hy
    rw [if_neg (by omega), if_pos (by omega)] at hhigher
    cases hhigher
    exact hdown.pairs other y below (by omega) hy (hparent ▸ hbelow)

structure Arranged (cmp : α → α → Int) (before after : IndexedHeap α) : Prop where
  indexed : after.Indexed
  ordered : after.Ordered cmp
  mem_iff : ∀ z, z ∈ after.items ↔ z ∈ before.items

theorem getElem?_place_self {position : Nat} {x : α} (hlt : position < heap.items.length) :
    (heap.place position x).items[position]? = some x := by
  rw [getElem?_place hlt, if_pos rfl]

theorem arranged_siftUpFrom (hcmp : SignedComparator cmp) {x : α} {position : Nat}
    (hlt : position < heap.items.length) (hindexed : (heap.place position x).Indexed)
    (hup : (heap.place position x).UpOrdered cmp position) :
    Arranged cmp (heap.place position x) (siftUpFrom cmp x heap position) := by
  induction heap, position using siftUpFrom.induct cmp x with
  | case1 heap =>
      rw [siftUpFrom]
      exact ⟨hindexed, hup.ordered fun position _ _ heq => by omega, fun _ => Iff.rfl⟩
  | case2 heap position hnone =>
      have := List.getElem?_eq_none_iff.mp hnone
      omega
  | case3 heap position above habove hle =>
      rw [siftUpFrom, habove]
      dsimp only
      rw [if_pos hle]
      refine ⟨hindexed, hup.ordered fun other y higher heq hy hhigher => ?_, fun _ => Iff.rfl⟩
      obtain rfl : other = position := by omega
      rw [getElem?_place hlt, if_pos rfl] at hy
      rw [getElem?_place hlt, if_neg (by omega), habove] at hhigher
      cases hy
      cases hhigher
      exact hle
  | case4 heap position above habove hle ih =>
      rw [siftUpFrom, habove]
      dsimp only
      rw [if_neg hle]
      have hx := getElem?_place_self (x := x) hlt
      have hhigher : (heap.place (position + 1) x).items[position / 2]? = some above := by
        rw [getElem?_place hlt, if_neg (by omega), habove]
      have hswap : (heap.place (position + 1) above).place (position / 2) x
          = (heap.place (position + 1) x).swap (position + 1) x (position / 2) above :=
        place_place heap (position / 2) x above
      have hnext := ih (by rw [length_place]; omega) (hswap ▸ hindexed.swap hx hhigher (by omega))
        (hswap ▸ hup.swap hcmp hx hhigher (hcmp.consistent.le_of_lt (not_le.mp hle)))
      refine ⟨hnext.indexed, hnext.ordered, fun z => ?_⟩
      rw [hnext.mem_iff, hswap, hindexed.mem_swap hx hhigher (by omega)]

theorem arranged_siftDownFrom (hcmp : SignedComparator cmp) {x : α} {position : Nat}
    (hlt : position < heap.items.length) (hindexed : (heap.place position x).Indexed)
    (hdown : (heap.place position x).DownOrdered cmp position) :
    Arranged cmp (heap.place position x) (siftDownFrom cmp x heap position) := by
  induction heap, position using siftDownFrom.induct cmp x with
  | case1 heap position hnone =>
      rw [siftDownFrom_eq, hnone]
      refine ⟨hindexed, hdown.ordered fun other y higher heq hy _ => ?_, fun _ => Iff.rfl⟩
      rw [getElem?_place hlt, if_neg (by omega)] at hy
      have hend : heap.items[other + 1]? = none := lesserChild_eq_none hnone (by omega)
      cases hend.symm.trans hy
  | case2 heap position child below hchild hle =>
      rw [siftDownFrom_eq, hchild]
      dsimp only
      rw [if_pos hle]
      refine ⟨hindexed, hdown.ordered fun other y higher heq hy hhigher => ?_, fun _ => Iff.rfl⟩
      rw [getElem?_place hlt, if_neg (by omega)] at hy
      rw [getElem?_place hlt, if_pos heq] at hhigher
      cases hhigher
      exact hcmp.trans _ _ _ hle (le_of_lesserChild hcmp hchild heq hy)
  | case3 heap position child below hchild hle ih =>
      rw [siftDownFrom_eq, hchild]
      dsimp only
      rw [if_neg hle]
      obtain ⟨hposition, hbelow⟩ := lesserChild_eq_some hchild
      obtain ⟨hnext, hend⟩ := lt_of_lesserChild hchild
      have hx := getElem?_place_self (x := x) hlt
      have hunder : (heap.place position x).items[child]? = some below := by
        rw [getElem?_place hlt, if_neg (by omega), hbelow]
      have hswap : (heap.place position below).place child x
          = (heap.place position x).swap position x child below := place_place heap child x below
      have hleast : ∀ other y, other / 2 = position → (heap.place position x).items[other + 1]? = some y →
          cmp below y ≤ 0 := by
        intro other y heq hy
        rw [getElem?_place hlt, if_neg (by omega)] at hy
        exact le_of_lesserChild hcmp hchild heq hy
      have harranged := ih (by rw [length_place]; omega) (hswap ▸ hindexed.swap hx hunder (by omega))
        (hswap ▸ hdown.swap hx hposition hunder (hcmp.consistent.le_of_lt (not_le.mp hle)) hleast)
      refine ⟨harranged.indexed, harranged.ordered, fun z => ?_⟩
      rw [harranged.mem_iff, hswap, hindexed.mem_swap hx hunder (by omega)]

theorem Indexed.place_self (hindexed : heap.Indexed) {position : Nat} {x : α}
    (hx : heap.items[position]? = some x) : heap.place position x = heap := by
  obtain ⟨hlt, rfl⟩ := List.getElem?_eq_some_iff.mp hx
  unfold place
  rw [List.set_getElem_self, Function.update_eq_self_iff.mpr ((hindexed _ position).mpr hx).symm]

theorem arranged_siftUp (hcmp : SignedComparator cmp) {position : Nat} {x : α} (hindexed : heap.Indexed)
    (hx : heap.items[position]? = some x) (hup : heap.UpOrdered cmp position) :
    Arranged cmp heap (heap.siftUp cmp position) := by
  have hself := hindexed.place_self hx
  obtain ⟨hlt, -⟩ := List.getElem?_eq_some_iff.mp hx
  have harranged := arranged_siftUpFrom hcmp (x := x) hlt (hself.symm ▸ hindexed) (hself.symm ▸ hup)
  unfold siftUp
  rw [hx]
  rwa [hself] at harranged

theorem arranged_siftDown (hcmp : SignedComparator cmp) {position : Nat} {x : α} (hindexed : heap.Indexed)
    (hx : heap.items[position]? = some x) (hdown : heap.DownOrdered cmp position) :
    Arranged cmp heap (heap.siftDown cmp position) := by
  have hself := hindexed.place_self hx
  obtain ⟨hlt, -⟩ := List.getElem?_eq_some_iff.mp hx
  have harranged := arranged_siftDownFrom hcmp (x := x) hlt (hself.symm ▸ hindexed) (hself.symm ▸ hdown)
  unfold siftDown
  rw [hx]
  rwa [hself] at harranged

theorem arranged_push (hcmp : SignedComparator cmp) {x : α} (hindexed : heap.Indexed)
    (hordered : heap.Ordered cmp) (hnew : x ∉ heap.items) :
    (heap.push cmp x).Indexed ∧ (heap.push cmp x).Ordered cmp
      ∧ ∀ z, z ∈ (heap.push cmp x).items ↔ z = x ∨ z ∈ heap.items := by
  have hget (position : Nat) : (heap.items ++ [x])[position]?
      = if position = heap.items.length then some x else heap.items[position]? := by
    split
    · next heq => simp [heq]
    · next hne =>
        obtain hlt | hgt := lt_or_gt_of_ne hne
        · rw [List.getElem?_append_left hlt]
        · rw [List.getElem?_eq_none (by simpa using Nat.succ_le_of_lt hgt), List.getElem?_eq_none hgt.le]
  have happended : Arranged cmp
      ⟨heap.items ++ [x], Function.update heap.index x (some heap.items.length)⟩ (heap.push cmp x) := by
    refine arranged_siftUp hcmp (x := x) (fun y position => ?_) (by simp) ⟨?_, ?_⟩
    · have hy := hindexed y position
      have hx := (hindexed x position).mp
      have hlen : heap.items[heap.items.length]? = none := by simp
      dsimp only
      rw [hget, Function.update_apply]
      have hout : heap.items[position]? ≠ some x := fun heq => hnew (List.mem_of_getElem? heq)
      split <;> split <;> grind
    · intro position y above hne hy habove
      rw [hget, if_neg hne] at hy
      obtain ⟨hlt, -⟩ := List.getElem?_eq_some_iff.mp hy
      rw [hget, if_neg (by omega)] at habove
      exact hordered position y above hy habove
    · intro position y above _ heq hy
      rw [hget, if_neg (by omega)] at hy
      obtain ⟨hlt, -⟩ := List.getElem?_eq_some_iff.mp hy
      omega
  exact ⟨happended.indexed, happended.ordered, fun z => (happended.mem_iff z).trans (by simp [or_comm])⟩

/-- The heap without its last member. -/
def pop (heap : IndexedHeap α) (last : α) : IndexedHeap α :=
  ⟨heap.items.dropLast, Function.update heap.index last none⟩

theorem Indexed.pop {last : α} (hindexed : heap.Indexed) (hlast : heap.items[heap.items.length - 1]? = some last) :
    (heap.pop last).Indexed := by
  intro z other
  have hz := hindexed z other
  have hend := (hindexed last _).mpr hlast
  unfold IndexedHeap.pop
  dsimp only
  rw [Function.update_apply, List.getElem?_dropLast]
  by_cases heq : z = last
  · subst heq
    rw [if_pos rfl]
    simp only [reduceCtorEq, false_iff]
    split
    · intro hsome
      have := Option.some.inj (hend.symm.trans (hz.mpr hsome))
      omega
    · simp
  · rw [if_neg heq, hz]
    split
    · rfl
    · simp only [reduceCtorEq, iff_false]
      intro hsome
      obtain ⟨hbound, -⟩ := List.getElem?_eq_some_iff.mp hsome
      obtain rfl : other = heap.items.length - 1 := by omega
      exact heq (Option.some.inj (hsome.symm.trans hlast))

theorem Indexed.mem_pop {last z : α} (hindexed : heap.Indexed)
    (hlast : heap.items[heap.items.length - 1]? = some last) :
    z ∈ (heap.pop last).items ↔ z ∈ heap.items ∧ z ≠ last := by
  rw [(hindexed.pop hlast).mem_iff, hindexed.mem_iff]
  unfold IndexedHeap.pop
  dsimp only
  rw [Function.update_apply]
  split
  · next heq => simp [heq]
  · next hne => simp [hne]

theorem getElem?_pop {last x : α} {position : Nat} (hx : (heap.pop last).items[position]? = some x) :
    position < heap.items.length - 1 ∧ heap.items[position]? = some x := by
  unfold pop at hx
  rw [List.getElem?_dropLast] at hx
  split at hx
  · next hlt => exact ⟨hlt, hx⟩
  · cases hx

theorem place_pop {removed last : α} {position : Nat} (hlt : position < heap.items.length - 1)
    (hne : last ≠ removed) :
    (heap.pop removed).place position last
      = (heap.swap position removed (heap.items.length - 1) last).pop removed := by
  unfold place pop swap
  congr 1
  · refine List.ext_getElem? fun other => ?_
    simp only [place, List.getElem?_set, List.getElem?_dropLast, List.length_dropLast, List.length_set]
    grind
  · funext z
    simp only [place, Function.update_apply]
    grind

theorem removeAt_spec (hcmp : SignedComparator cmp) {position : Nat} {removed : α} (hindexed : heap.Indexed)
    (hordered : heap.Ordered cmp) (hremoved : heap.items[position]? = some removed) :
    (heap.removeAt cmp position).Indexed ∧ (heap.removeAt cmp position).Ordered cmp
      ∧ ∀ z, z ∈ (heap.removeAt cmp position).items ↔ z ∈ heap.items ∧ z ≠ removed := by
  obtain ⟨hlt, -⟩ := List.getElem?_eq_some_iff.mp hremoved
  obtain ⟨last, hlast⟩ : ∃ last, heap.items[heap.items.length - 1]? = some last :=
    ⟨_, List.getElem?_eq_getElem (by omega)⟩
  unfold removeAt
  rw [hremoved, List.getLast?_eq_getElem?, hlast]
  dsimp only
  by_cases hsame : last = removed
  · subst hsame
    rw [if_pos rfl]
    refine ⟨hindexed.pop hlast, fun other x above hx habove => ?_, fun z => hindexed.mem_pop hlast⟩
    exact hordered other x above (getElem?_pop hx).2 (getElem?_pop habove).2
  · have hbefore : position < heap.items.length - 1 := by
      refine lt_of_le_of_ne (by omega) fun heq => hsame ?_
      rw [← heq, hremoved] at hlast
      exact (Option.some.inj hlast).symm
    rw [if_neg hsame]
    generalize hmoved : IndexedHeap.place ⟨heap.items.dropLast, Function.update heap.index removed none⟩ position last
      = moved
    replace hmoved : (heap.swap position removed (heap.items.length - 1) last).pop removed = moved :=
      (place_pop hbefore hsame).symm.trans hmoved
    have hswapped := hindexed.swap hremoved hlast hbefore.ne
    have hend : (heap.swap position removed (heap.items.length - 1) last).items[
        (heap.swap position removed (heap.items.length - 1) last).items.length - 1]? = some removed := by
      have hlen : (heap.swap position removed (heap.items.length - 1) last).items.length = heap.items.length := by
        simp [swap]
      rw [hlen, getElem?_swap hremoved hlast, if_pos rfl]
    have hfresh : moved.Indexed := hmoved ▸ hswapped.pop hend
    have hkept (z : α) : z ∈ moved.items ↔ z ∈ heap.items ∧ z ≠ removed := by
      rw [← hmoved, hswapped.mem_pop hend, hindexed.mem_swap hremoved hlast hbefore.ne]
    have hget {other : Nat} {z : α} (hz : moved.items[other]? = some z) :
        if other = position then z = last else heap.items[other]? = some z := by
      rw [← hmoved] at hz
      obtain ⟨hbound, hz⟩ := getElem?_pop hz
      rw [getElem?_swap hremoved hlast] at hz
      have hlen : (heap.swap position removed (heap.items.length - 1) last).items.length = heap.items.length := by
        simp [swap]
      rw [if_neg (by omega)] at hz
      split
      · next heq =>
          rw [if_pos heq] at hz
          exact (Option.some.inj hz).symm
      · next hne => rwa [if_neg hne] at hz
    have hold {other : Nat} {z : α} (hother : other ≠ position) (hz : moved.items[other]? = some z) :
        heap.items[other]? = some z := by
      have hz := hget hz
      rwa [if_neg hother] at hz
    have hmoves {z : α} (hz : moved.items[position]? = some z) : z = last := by
      have hz := hget hz
      rwa [if_pos rfl] at hz
    have hthere : moved.items[position]? = some last := by
      rw [← hmoved, ← place_pop hbefore hsame, getElem?_place_self (by simpa [pop] using hbefore)]
    have haround (other : Nat) (x above : α) (hpos : 0 < position) (hother : other / 2 = position)
        (hx : moved.items[other + 1]? = some x) (habove : moved.items[(position - 1) / 2]? = some above) :
        cmp above x ≤ 0 := by
      have hupper := hordered (position - 1) removed above (by rwa [Nat.sub_add_cancel hpos])
        (hold (by omega) habove)
      exact hcmp.trans _ _ _ hupper (hordered other x removed (hold (by omega) hx) (hother ▸ hremoved))
    have harranged {after : IndexedHeap α} (hafter : Arranged cmp moved after) :
        after.Indexed ∧ after.Ordered cmp ∧ ∀ z, z ∈ after.items ↔ z ∈ heap.items ∧ z ≠ removed :=
      ⟨hafter.indexed, hafter.ordered, fun z => (hafter.mem_iff z).trans (hkept z)⟩
    split
    · next hup =>
        obtain ⟨hpos, habove⟩ := hup
        obtain ⟨above, hparent, hless⟩ := (Option.any_eq_true _ _).mp habove
        refine harranged (arranged_siftUp hcmp hfresh hthere ⟨fun other x higher hne hx hhigher => ?_, haround⟩)
        by_cases hother : other / 2 = position
        · rw [hother] at hhigher
          cases hmoves hhigher
          exact hcmp.trans _ _ _ (of_decide_eq_true hless).le (haround other x above hpos hother hx hparent)
        · exact hordered other x higher (hold hne hx) (hold hother hhigher)
    · next hdown =>
        refine harranged (arranged_siftDown hcmp hfresh hthere ⟨fun other x higher hne hx hhigher => ?_, haround⟩)
        by_cases hother : other + 1 = position
        · rw [hother] at hx
          cases hmoves hx
          refine not_lt.mp fun hless => hdown ⟨by omega, ?_⟩
          rw [← hother, Nat.add_sub_cancel, hhigher]
          exact decide_eq_true ((hcmp.swap _ _).mpr hless)
        · exact hordered other x higher (hold hother hx) (hold hne hhigher)

theorem remove_spec (hcmp : SignedComparator cmp) {x : α} (hindexed : heap.Indexed) (hordered : heap.Ordered cmp) :
    (heap.remove cmp x).Indexed ∧ (heap.remove cmp x).Ordered cmp
      ∧ ∀ z, z ∈ (heap.remove cmp x).items ↔ z ∈ heap.items ∧ z ≠ x := by
  unfold remove
  split
  · next hnone =>
      refine ⟨hindexed, hordered, fun z => ⟨fun hz => ⟨hz, ?_⟩, And.left⟩⟩
      rintro rfl
      rw [hindexed.mem_iff, hnone] at hz
      cases hz
  · next position hposition =>
      have hx := (hindexed x position).mp hposition
      rw [if_pos hx]
      exact removeAt_spec hcmp hindexed hordered hx

omit [DecidableEq α] in
theorem Ordered.congr {cmp' : α → α → Int} (hordered : heap.Ordered cmp)
    (hagree : ∀ x ∈ heap.items, ∀ y ∈ heap.items, cmp x y = cmp' x y) : heap.Ordered cmp' := by
  intro position x above hx habove
  rw [← hagree above (List.mem_of_getElem? habove) x (List.mem_of_getElem? hx)]
  exact hordered position x above hx habove

omit [DecidableEq α] in
theorem Ordered.head_le (hcmp : SignedComparator cmp) (hordered : heap.Ordered cmp) {top x : α}
    (htop : heap.items[0]? = some top) (hx : x ∈ heap.items) : cmp top x ≤ 0 := by
  obtain ⟨position, hposition⟩ := List.mem_iff_getElem?.mp hx
  induction position using Nat.strong_induction_on generalizing x with
  | _ position ih =>
      cases position with
      | zero =>
          cases htop.symm.trans hposition
          exact hcmp.consistent.refl _
      | succ position =>
          obtain ⟨hlt, -⟩ := List.getElem?_eq_some_iff.mp hposition
          have habove := List.getElem?_eq_getElem (l := heap.items) (i := position / 2) (by omega)
          exact hcmp.trans _ _ _ (ih (position / 2) (by omega) (List.getElem_mem _) habove)
            (hordered position x _ hposition habove)

end Order

end IndexedHeap

end Deckent
