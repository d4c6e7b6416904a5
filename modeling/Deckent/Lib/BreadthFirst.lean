import Mathlib.Data.Finset.Card
import Mathlib.Logic.Relation
import Deckent.Lib.OrderedSet

/-!
# Breadth-first search with a visited set

The worklist loop that marks a vertex when it is queued: every queued vertex is visited, and every
visited vertex except the start is found. The loop answers nothing when its fuel runs out. While
vertices are queued as often as they are found, the number of rounds still to go is bounded by the
vertices not yet found and the queue, so a graph whose edges stay in a finite set is searched to the
end, cycles or not, and what is found is what the start reaches.
-/

namespace Deckent

open Relation

variable {α : Type*} [DecidableEq α]

structure Frontier (α : Type*) where
  visited : OrderedSet α
  found : List α
  queue : List α

namespace Frontier

def start (vertex : α) : Frontier α :=
  { visited := OrderedSet.add ∅ vertex, found := [], queue := [vertex] }

def discover (frontier : Frontier α) (x : α) : Frontier α :=
  if x ∈ frontier.visited then frontier
  else
    { visited := frontier.visited.add x
      found := frontier.found ++ [x]
      queue := frontier.queue ++ [x] }

def explore (next : α → List α) : Nat → Frontier α → Option (List α)
  | 0, _ => none
  | fuel + 1, frontier =>
      match frontier.queue with
      | [] => some frontier.found
      | current :: queue =>
          explore next fuel ((next current).foldl discover { frontier with queue := queue })

/-- What a search from `root` has done: it visited the root and what it found, everything visited is
reachable, and a visited vertex whose successors are not all visited is queued or `busy`. -/
structure Explored (next : α → List α) (root : α) (busy : List α) (frontier : Frontier α) : Prop where
  visited : frontier.visited.members = root :: frontier.found
  reachable : ∀ x ∈ frontier.visited, ReflTransGen (fun a b => b ∈ next a) root x
  queued : ∀ x ∈ frontier.queue, x ∈ frontier.visited
  closed : ∀ x ∈ frontier.visited, x ∈ frontier.queue ∨ x ∈ busy ∨ ∀ y ∈ next x, y ∈ frontier.visited

variable {next : α → List α} {root : α} {busy : List α} {frontier : Frontier α}

theorem Explored.start (vertex : α) : Explored next vertex [] (Frontier.start vertex) := by
  have hvisited : ∀ x ∈ (Frontier.start vertex).visited, x = vertex := by
    intro x hx
    simpa [Frontier.start] using hx
  refine ⟨rfl, fun x hx => ?_, fun x hx => ?_, fun x hx => Or.inl ?_⟩
  · rw [hvisited x hx]
  · simpa [Frontier.start] using hx
  · exact List.mem_singleton.mpr (hvisited x hx)

omit [DecidableEq α] in
theorem Explored.mem_visited (hexplored : Explored next root busy frontier) {x : α} :
    x ∈ frontier.visited ↔ x = root ∨ x ∈ frontier.found := by
  rw [OrderedSet.mem_def, hexplored.visited, List.mem_cons]

omit [DecidableEq α] in
theorem Explored.nodup (hexplored : Explored next root busy frontier) :
    (root :: frontier.found).Nodup :=
  hexplored.visited ▸ frontier.visited.nodup

/-- Queuing a reachable vertex keeps what the search has done. -/
theorem Explored.discover (hexplored : Explored next root busy frontier) {x : α}
    (hx : ReflTransGen (fun a b => b ∈ next a) root x) :
    Explored next root busy (frontier.discover x) := by
  unfold Frontier.discover
  split
  · exact hexplored
  · next hnew =>
      have hfresh : x ∉ frontier.visited.members := hnew
      have hadd : (frontier.visited.add x).members = frontier.visited.members ++ [x] := by
        rw [OrderedSet.add, dif_neg hfresh]
      refine ⟨?_, fun y hy => ?_, fun y hy => ?_, fun y hy => ?_⟩
      · rw [hadd, hexplored.visited, List.cons_append]
      · rcases OrderedSet.mem_add.mp hy with hold | rfl
        · exact hexplored.reachable y hold
        · exact hx
      · refine OrderedSet.mem_add.mpr ?_
        rcases List.mem_append.mp hy with hold | hy
        · exact Or.inl (hexplored.queued y hold)
        · exact Or.inr (List.mem_singleton.mp hy)
      · rcases OrderedSet.mem_add.mp hy with hold | rfl
        · rcases hexplored.closed y hold with hqueue | hbusy | hclosed
          · exact Or.inl (List.mem_append_left _ hqueue)
          · exact Or.inr (Or.inl hbusy)
          · exact Or.inr (Or.inr fun z hz => OrderedSet.mem_add.mpr (Or.inl (hclosed z hz)))
        · exact Or.inl (List.mem_append_right _ (List.mem_singleton_self y))

theorem length_discover (frontier : Frontier α) (x : α) :
    (frontier.discover x).queue.length + frontier.found.length
      = frontier.queue.length + (frontier.discover x).found.length := by
  unfold discover
  split
  · rfl
  · simp only [List.length_append]
    omega

theorem mem_visited_discover {x y : α} :
    y ∈ (frontier.discover x).visited ↔ y ∈ frontier.visited ∨ y = x := by
  unfold discover
  split
  · next hx =>
      refine ⟨Or.inl, ?_⟩
      rintro (hy | rfl)
      · exact hy
      · exact hx
  · exact OrderedSet.mem_add

theorem mem_visited_discoverAll {list : List α} {y : α} :
    y ∈ (list.foldl discover frontier).visited ↔ y ∈ frontier.visited ∨ y ∈ list := by
  induction list generalizing frontier with
  | nil => simp
  | cons x rest ih => rw [List.foldl_cons, ih, mem_visited_discover, List.mem_cons, or_assoc]

theorem Explored.discoverAll {list : List α} (hexplored : Explored next root busy frontier)
    (hlist : ∀ x ∈ list, ReflTransGen (fun a b => b ∈ next a) root x) :
    Explored next root busy (list.foldl Frontier.discover frontier) :=
  List.foldlRecOn list _ hexplored fun _ hstep x hx => hstep.discover (hlist x hx)

theorem length_discoverAll (list : List α) (frontier : Frontier α) :
    (list.foldl discover frontier).queue.length + frontier.found.length
      = frontier.queue.length + (list.foldl discover frontier).found.length := by
  induction list generalizing frontier with
  | nil => rfl
  | cons x rest ih =>
      have hhead := length_discover frontier x
      have htail := ih (frontier.discover x)
      rw [List.foldl_cons]
      omega

/-- One round: the first queued vertex is expanded and has nothing left to do. -/
theorem Explored.round {current : α} {queue : List α} (hexplored : Explored next root [] frontier)
    (hqueue : frontier.queue = current :: queue) :
    Explored next root [] ((next current).foldl Frontier.discover { frontier with queue := queue }) := by
  have hcurrent : current ∈ frontier.visited :=
    hexplored.queued current (hqueue ▸ List.mem_cons_self)
  have hbusy : Explored next root [current] { frontier with queue := queue } := by
    refine ⟨hexplored.visited, hexplored.reachable, fun x hx => ?_, fun x hx => ?_⟩
    · exact hexplored.queued x (hqueue ▸ List.mem_cons_of_mem _ hx)
    · rcases hexplored.closed x hx with hold | hnone | hclosed
      · rw [hqueue] at hold
        rcases List.mem_cons.mp hold with rfl | hrest
        · exact Or.inr (Or.inl (List.mem_singleton_self x))
        · exact Or.inl hrest
      · exact absurd hnone List.not_mem_nil
      · exact Or.inr (Or.inr hclosed)
  have hall := hbusy.discoverAll fun x hx => (hexplored.reachable current hcurrent).tail hx
  refine ⟨hall.visited, hall.reachable, hall.queued, fun x hx => ?_⟩
  rcases hall.closed x hx with hqueued | hx | hclosed
  · exact Or.inl hqueued
  · rw [List.mem_singleton.mp hx]
    exact Or.inr (Or.inr fun y hy => mem_visited_discoverAll.mpr (Or.inr hy))
  · exact Or.inr (Or.inr hclosed)

/-- A search whose edges stay in a finite set ends, and then everything visited is closed. -/
theorem Explored.explore {vertices : Finset α} (hvertices : ∀ a b, b ∈ next a → b ∈ vertices)
    (hroot : root ∈ vertices) {fuel : Nat} (hexplored : Explored next root [] frontier)
    (hfuel : vertices.card + frontier.queue.length < fuel + frontier.found.length) :
    ∃ final, frontier.explore next fuel = some final.found ∧ Explored next root [] final
      ∧ final.queue = [] := by
  induction fuel generalizing frontier with
  | zero =>
      have hsub : (root :: frontier.found).toFinset ⊆ vertices := by
        intro x hx
        have hvisited : x ∈ frontier.visited := hexplored.mem_visited.mpr (by simpa using hx)
        rcases ReflTransGen.cases_tail (hexplored.reachable x hvisited) with rfl | ⟨a, -, hax⟩
        · exact hroot
        · exact hvertices a x hax
      have hcard := Finset.card_le_card hsub
      rw [List.toFinset_card_of_nodup hexplored.nodup, List.length_cons] at hcard
      omega
  | succ fuel ih =>
      unfold Frontier.explore
      cases hqueue : frontier.queue with
      | nil => exact ⟨frontier, rfl, hexplored, hqueue⟩
      | cons current queue =>
          refine ih (hexplored.round hqueue) ?_
          have hlength := length_discoverAll (next current) { frontier with queue := queue }
          rw [hqueue, List.length_cons] at hfuel
          dsimp only at hlength
          omega

theorem explore_succ {fuel : Nat} {found : List α} (hfound : frontier.explore next fuel = some found) :
    frontier.explore next (fuel + 1) = some found := by
  induction fuel generalizing frontier with
  | zero => simp [Frontier.explore] at hfound
  | succ fuel ih =>
      unfold Frontier.explore at hfound ⊢
      cases hqueue : frontier.queue with
      | nil => simpa only [hqueue] using hfound
      | cons current queue =>
          simp only [hqueue] at hfound ⊢
          exact ih hfound

theorem explore_mono {fuel more : Nat} {found : List α} (hle : fuel ≤ more)
    (hfound : frontier.explore next fuel = some found) : frontier.explore next more = some found := by
  induction hle with
  | refl => exact hfound
  | step _ ih => exact explore_succ ih

/-- What the search finds: every vertex other than the start that the start reaches, once. -/
theorem explore_start {vertices : Finset α} (hvertices : ∀ a b, b ∈ next a → b ∈ vertices)
    (hroot : root ∈ vertices) :
    ∃ fuel found, (∀ more, fuel ≤ more → (Frontier.start root).explore next more = some found)
      ∧ found.Nodup ∧ ∀ x, x ∈ found ↔ x ≠ root ∧ ReflTransGen (fun a b => b ∈ next a) root x := by
  have hstart : Explored next root [] (Frontier.start root) := Explored.start root
  obtain ⟨final, hfinal, hexplored, hempty⟩ :=
    hstart.explore hvertices hroot (Nat.lt_succ_self (vertices.card + 1))
  obtain ⟨hfresh, hnodup⟩ := List.nodup_cons.mp hexplored.nodup
  have hclosed : ∀ x ∈ final.visited, ∀ y ∈ next x, y ∈ final.visited := by
    intro x hx
    rcases hexplored.closed x hx with hqueue | hbusy | hclosed
    · exact absurd (hempty ▸ hqueue) List.not_mem_nil
    · exact absurd hbusy List.not_mem_nil
    · exact hclosed
  refine ⟨_, final.found, fun more hmore => explore_mono hmore hfinal, hnodup,
    fun x => ⟨fun hx => ⟨?_, ?_⟩, ?_⟩⟩
  · rintro rfl
    exact hfresh hx
  · exact hexplored.reachable x (hexplored.mem_visited.mpr (Or.inr hx))
  · rintro ⟨hne, hreach⟩
    have hvisited : x ∈ final.visited := by
      clear hne
      induction hreach with
      | refl => exact hexplored.mem_visited.mpr (Or.inl rfl)
      | tail _ hbc ih => exact hclosed _ ih _ hbc
    exact (hexplored.mem_visited.mp hvisited).resolve_left hne

end Frontier

end Deckent
