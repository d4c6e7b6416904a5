import Deckent.Proof.TopologicalOrder

/-!
# The order of the writers

The tasks that write one path are sorted by their position in the authored order, and each neighbouring
pair that the authored edges do not order gets a synthetic edge. So the writers of a path form a chain
under the authored and synthetic edges together, and, the authored edges being acyclic, every
synthetic edge goes forward in the authored order.
-/

namespace Deckent.ExecutionTopology

open Relation

theorem slot_mem_slotsOf {tasks : List Task} {task : Task} {slot : Nat}
    (hmem : (task, slot) ∈ tasks.zipIdx 1) : slot ∈ slotsOf tasks.length := by
  have hbounds := List.mem_zipIdx hmem
  rw [mem_slotsOf]
  omega

/-! ### The authored edges -/

theorem uniqueSlot_mem {key : Task → String} {tasks : List Task} {ref : String} {slot : Nat}
    (hslot : uniqueSlot (slotTable key tasks) ref = some slot) : slot ∈ slotsOf tasks.length := by
  unfold uniqueSlot at hslot
  split at hslot
  · next found hfound =>
      obtain rfl : found = slot := by simpa using hslot
      have hgroup := (OrderedMap.get?_groupBy.mp hfound).1
      have hin : found ∈ ((tasks.zipIdx 1).filter fun entry => key entry.1 = ref).map Prod.snd :=
        hgroup ▸ List.mem_singleton_self found
      obtain ⟨entry, hentry, rfl⟩ := List.mem_map.mp hin
      exact slot_mem_slotsOf (List.mem_of_mem_filter hentry)
  · exact absurd hslot (by simp)

theorem resolveRef_edges {tasks : List Task} {toSlot : Nat} {scan : DependencyScan} {ref : String}
    (hto : toSlot ∈ slotsOf tasks.length) (hscan : EdgesWithin tasks.length scan.edges) :
    EdgesWithin tasks.length
      (resolveRef (slotTable Task.id tasks) (slotTable Task.title tasks) toSlot scan ref).edges := by
  unfold resolveRef
  dsimp only
  split
  · exact hscan
  · next fromSlot hfrom =>
      split
      · exact hscan
      · split
        · exact hscan
        · have hsource : fromSlot ∈ slotsOf tasks.length := by
            rcases Option.or_eq_some_iff.mp hfrom with hid | ⟨-, htitle⟩
            · exact uniqueSlot_mem hid
            · exact uniqueSlot_mem htitle
          intro edge hedge
          rcases List.mem_append.mp hedge with hold | hnew
          · exact hscan edge hold
          · rw [List.mem_singleton.mp hnew]
            exact ⟨hsource, hto⟩

theorem authoredEdges_within (tasks : List Task) :
    EdgesWithin tasks.length (resolveDependencySlots tasks).1 := by
  unfold resolveDependencySlots
  intro edge hedge
  refine List.foldlRecOn (motive := fun scan : DependencyScan => EdgesWithin tasks.length scan.edges)
    (tasks.zipIdx 1) _ (by simp [EdgesWithin]) ?_ edge (mem_sortBy.mp hedge)
  intro scan hscan entry hentry
  refine List.foldlRecOn (motive := fun scan : DependencyScan => EdgesWithin tasks.length scan.edges)
    _ _ hscan ?_
  intro scan' hscan' ref _
  exact resolveRef_edges (slot_mem_slotsOf hentry) hscan'

/-! ### The writers of a path -/

def WritesKey (tables : UnicodeTables) (tasks : List Task) (key : String) (slot : Nat) : Prop :=
  ∃ task, (task, slot) ∈ tasks.zipIdx 1 ∧
    ∃ raw ∈ (task.scope.bind TaskScope.filesWrite).getD [],
      ∃ normalized, normalizePortableWriterPath tables raw = some normalized
        ∧ normalized.collisionKey = key

def Recorded (writers : OrderedMap String WriterEntry) (key : String) (slot : Nat) : Prop :=
  ∃ entry, writers.get? key = some entry ∧ slot ∈ entry.slots

theorem recorded_recordWriter {tables : UnicodeTables} {scan : WriterScan} {raw key : String}
    {slot other : Nat} :
    Recorded (recordWriter tables slot scan raw).writers key other
      ↔ Recorded scan.writers key other ∨ other = slot ∧
        ∃ normalized, normalizePortableWriterPath tables raw = some normalized
          ∧ normalized.collisionKey = key := by
  unfold recordWriter
  cases hnormal : normalizePortableWriterPath tables raw with
  | none => simp
  | some normalized =>
      simp only [Recorded, OrderedMap.get?_upsert, Option.some.injEq, exists_eq_left']
      by_cases hkey : key = normalized.collisionKey
      · subst hkey
        cases hold : scan.writers.get? normalized.collisionKey with
        | none => simp
        | some entry => simp
      · simp [hkey, Ne.symm hkey]

theorem recorded_foldl_recordWriter {tables : UnicodeTables} {slot : Nat} {raws : List String}
    {scan : WriterScan} {key : String} {other : Nat} :
    Recorded (raws.foldl (recordWriter tables slot) scan).writers key other
      ↔ Recorded scan.writers key other ∨ other = slot ∧ ∃ raw ∈ raws,
        ∃ normalized, normalizePortableWriterPath tables raw = some normalized
          ∧ normalized.collisionKey = key := by
  induction raws generalizing scan with
  | nil => simp
  | cons raw rest ih =>
      rw [List.foldl_cons, ih, recorded_recordWriter]
      rw [List.exists_mem_cons_iff, or_assoc, ← and_or_left]

theorem recorded_scanWriters {tables : UnicodeTables} {tasks : List Task} {key : String} {slot : Nat} :
    Recorded (scanWriters tables tasks).writers key slot ↔ WritesKey tables tasks key slot := by
  have hgeneral : ∀ (entries : List (Task × Nat)) (scan : WriterScan),
      Recorded (entries.foldl (fun scan entry =>
          ((entry.1.scope.bind TaskScope.filesWrite).getD []).foldl (recordWriter tables entry.2) scan)
          scan).writers key slot
        ↔ Recorded scan.writers key slot ∨ ∃ task, (task, slot) ∈ entries ∧
          ∃ raw ∈ (task.scope.bind TaskScope.filesWrite).getD [],
            ∃ normalized, normalizePortableWriterPath tables raw = some normalized
              ∧ normalized.collisionKey = key := by
    intro entries
    induction entries with
    | nil => simp
    | cons entry rest ih =>
        intro scan
        rw [List.foldl_cons, ih, recorded_foldl_recordWriter, or_assoc]
        refine or_congr_right ⟨?_, ?_⟩
        · rintro (⟨rfl, hwrites⟩ | ⟨task, htask, hwrites⟩)
          · exact ⟨entry.1, List.mem_cons_self, hwrites⟩
          · exact ⟨task, List.mem_cons_of_mem _ htask, hwrites⟩
        · rintro ⟨task, htask, hwrites⟩
          rcases List.mem_cons.mp htask with rfl | htask
          · exact Or.inl ⟨rfl, hwrites⟩
          · exact Or.inr ⟨task, htask, hwrites⟩
  rw [scanWriters, hgeneral]
  simp [Recorded, WritesKey]

/-! ### Sorting the writers and adding edges -/

def writerSlots (order : List Nat) (entry : WriterEntry) : List Nat :=
  sortBy (compareWriters order) entry.slots.members

theorem consistent_compareWriters (order : List Nat) : ConsistentComparator (compareWriters order) where
  total a b := by
    simp only [compareWriters, thenBy_nonpos, compareNumber]
    omega
  trans a b c := by
    simp only [compareWriters, thenBy_nonpos, compareNumber]
    omega

theorem isChain_iff_forall_mem_zip_tail {α : Type*} {r : α → α → Prop} {list : List α} :
    list.IsChain r ↔ ∀ pair ∈ list.zip list.tail, r pair.1 pair.2 := by
  induction list with
  | nil => simp
  | cons a rest ih =>
      cases rest with
      | nil => simp
      | cons b rest =>
          rw [List.isChain_cons_cons, ih]
          simp

def Keyed (synthetic : OrderedMap (Nat × Nat) (OrderedSet String)) (pair : Nat × Nat) : Prop :=
  ∃ paths, synthetic.get? pair = some paths

theorem keyed_addSynthetic {reachability : Nat → Finset Nat} {path : String}
    {synthetic : OrderedMap (Nat × Nat) (OrderedSet String)} {pair other : Nat × Nat} :
    Keyed (addSynthetic reachability path synthetic pair) other
      ↔ Keyed synthetic other ∨ other = pair ∧ pair.2 ∉ reachability pair.1 := by
  unfold addSynthetic
  split
  · next hordered => simp [hordered]
  · next hunordered =>
      simp only [Keyed, OrderedMap.get?_upsert]
      by_cases hother : other = pair
      · simp [hother, hunordered]
      · simp [hother]

theorem keyed_foldl_addSynthetic {reachability : Nat → Finset Nat} {path : String}
    {pairs : List (Nat × Nat)} {synthetic : OrderedMap (Nat × Nat) (OrderedSet String)}
    {other : Nat × Nat} :
    Keyed (pairs.foldl (addSynthetic reachability path) synthetic) other
      ↔ Keyed synthetic other ∨ other ∈ pairs ∧ other.2 ∉ reachability other.1 := by
  induction pairs generalizing synthetic with
  | nil => simp
  | cons pair rest ih =>
      rw [List.foldl_cons, ih, keyed_addSynthetic, List.mem_cons]
      constructor
      · rintro ((hold | ⟨rfl, hout⟩) | ⟨hmem, hout⟩)
        · exact Or.inl hold
        · exact Or.inr ⟨Or.inl rfl, hout⟩
        · exact Or.inr ⟨Or.inr hmem, hout⟩
      · rintro (hold | ⟨rfl | hmem, hout⟩)
        · exact Or.inl (Or.inl hold)
        · exact Or.inl (Or.inr ⟨rfl, hout⟩)
        · exact Or.inr ⟨hmem, hout⟩

section Collisions

variable (reachability : Nat → Finset Nat) (order : List Nat)

def Ordered (slots : List Nat) : Prop :=
  slots.Pairwise fun a b => b ∈ reachability a ∨ a ∈ reachability b

def IsCollision (entries : List (String × WriterEntry)) (collision : Collision) : Prop :=
  ∃ entry ∈ entries, 2 ≤ entry.2.slots.size ∧ collision.key = entry.1
    ∧ collision.path = entry.2.path ∧ collision.writerSlots = writerSlots order entry.2
    ∧ (collision.declared = true ↔ Ordered reachability collision.writerSlots)

def IsUnordered (entries : List (String × WriterEntry)) (pair : Nat × Nat) : Prop :=
  ∃ entry ∈ entries, 2 ≤ entry.2.slots.size
    ∧ pair ∈ (writerSlots order entry.2).zip (writerSlots order entry.2).tail
    ∧ pair.2 ∉ reachability pair.1

structure CollisionsOf (entries : List (String × WriterEntry)) (scan : CollisionScan) : Prop where
  sound : ∀ collision ∈ scan.collisions, IsCollision reachability order entries collision
  complete : ∀ entry ∈ entries, 2 ≤ entry.2.slots.size →
    ∃ collision ∈ scan.collisions, collision.writerSlots = writerSlots order entry.2
      ∧ (collision.declared = true ↔ Ordered reachability collision.writerSlots)
  keyed : ∀ pair, Keyed scan.syntheticByKey pair ↔ IsUnordered reachability order entries pair
  findings : ∀ finding ∈ scan.findings, finding.code = .undeclaredWriterCollision

variable {reachability order}

theorem CollisionsOf.record {entries : List (String × WriterEntry)} {scan : CollisionScan}
    (h : CollisionsOf reachability order entries scan) (entry : String × WriterEntry) :
    CollisionsOf reachability order (entries ++ [entry])
      (recordCollision reachability order scan entry) := by
  have hweaken : ∀ collision, IsCollision reachability order entries collision →
      IsCollision reachability order (entries ++ [entry]) collision := by
    rintro collision ⟨old, hold, hrest⟩
    exact ⟨old, List.mem_append_left _ hold, hrest⟩
  unfold recordCollision
  by_cases hsize : entry.2.slots.size < 2
  · rw [if_pos hsize]
    refine ⟨fun collision hmem => hweaken collision (h.sound collision hmem), ?_, ?_, h.findings⟩
    · intro other hother hlarge
      rcases List.mem_append.mp hother with hold | hnew
      · exact h.complete other hold hlarge
      · rw [List.mem_singleton.mp hnew] at hlarge
        omega
    · intro pair
      rw [h.keyed]
      simp only [IsUnordered, List.mem_append, List.mem_singleton, or_and_right, exists_or,
        exists_eq_left, not_le.mpr hsize, false_and, or_false]
  · rw [if_neg hsize]
    have hdeclared : decide ((writerSlots order entry.2).Pairwise fun a b =>
        b ∈ reachability a ∨ a ∈ reachability b) = true
          ↔ Ordered reachability (writerSlots order entry.2) := decide_eq_true_iff
    refine ⟨?_, ?_, ?_, ?_⟩
    · intro collision hmem
      rcases List.mem_append.mp hmem with hold | hnew
      · exact hweaken collision (h.sound collision hold)
      · rw [List.mem_singleton.mp hnew]
        exact ⟨entry, by simp, not_lt.mp hsize, rfl, rfl, rfl, hdeclared⟩
    · intro other hother hlarge
      rcases List.mem_append.mp hother with hold | hnew
      · obtain ⟨collision, hmem, hrest⟩ := h.complete other hold hlarge
        exact ⟨collision, List.mem_append_left _ hmem, hrest⟩
      · rw [List.mem_singleton.mp hnew]
        exact ⟨_, List.mem_append_right _ (List.mem_singleton_self _), rfl, hdeclared⟩
    · intro pair
      rw [keyed_foldl_addSynthetic, h.keyed]
      simp only [IsUnordered, List.mem_append, List.mem_singleton, or_and_right, exists_or,
        exists_eq_left, not_lt.mp hsize, true_and]
      rfl
    · intro finding hmem
      dsimp only at hmem
      split at hmem
      · exact h.findings finding hmem
      · rcases List.mem_append.mp hmem with hold | hnew
        · exact h.findings finding hold
        · rw [List.mem_singleton.mp hnew]

theorem collisionsOf_foldl (entries : List (String × WriterEntry)) :
    CollisionsOf reachability order entries (entries.foldl (recordCollision reachability order)
      { syntheticByKey := OrderedMap.empty, collisions := [], findings := [] }) := by
  induction entries using List.reverseRecOn with
  | nil => refine ⟨?_, ?_, ?_, ?_⟩ <;> simp [Keyed, IsUnordered]
  | append_singleton entries entry ih =>
      rw [List.foldl_append]
      exact ih.record entry

end Collisions

/-! ### The effective edges -/

structure MergedFrom (edges : List Edge) (effective : OrderedMap (Nat × Nat) Edge) : Prop where
  key : ∀ pair edge, effective.get? pair = some edge → (edge.fromSlot, edge.toSlot) = pair
  joined : ∀ a b, (∃ edge, effective.get? (a, b) = some edge) ↔ edgeRel edges a b

theorem MergedFrom.merge {edges : List Edge} {effective : OrderedMap (Nat × Nat) Edge}
    (h : MergedFrom edges effective) (edge : Edge) :
    MergedFrom (edges ++ [edge]) (mergeEdge effective edge) := by
  have hset : MergedFrom (edges ++ [edge]) (effective.set (edge.fromSlot, edge.toSlot) edge) := by
    refine ⟨?_, ?_⟩
    · intro pair other hother
      rw [OrderedMap.get?_set] at hother
      split at hother
      · next hpair => rw [hpair, ← Option.some.inj hother]
      · exact h.key pair other hother
    · intro a b
      rw [edgeRel_concat, ← h.joined]
      simp only [OrderedMap.get?_set]
      split
      · next hpair =>
          obtain ⟨rfl, rfl⟩ := Prod.mk.inj hpair
          simp
      · next hpair =>
          have hother : ¬ (edge.fromSlot = a ∧ edge.toSlot = b) := by
            rintro ⟨rfl, rfl⟩
            exact hpair rfl
          simp [hother]
  unfold mergeEdge
  split
  · exact hset
  · next existing hexisting =>
      split
      · exact hset
      · refine ⟨h.key, fun a b => ?_⟩
        rw [h.joined, edgeRel_concat]
        refine ⟨Or.inl, ?_⟩
        rintro (hold | ⟨rfl, rfl⟩)
        · exact hold
        · exact (h.joined _ _).mp ⟨existing, hexisting⟩

theorem mergedFrom_foldl (edges : List Edge) :
    MergedFrom edges (edges.foldl mergeEdge OrderedMap.empty) := by
  induction edges using List.reverseRecOn with
  | nil => exact ⟨by simp, by simp [edgeRel]⟩
  | append_singleton edges edge ih =>
      rw [List.foldl_append]
      exact ih.merge edge

theorem edgeRel_merged {cmp : Edge → Edge → Int} {edges : List Edge} {a b : Nat} :
    edgeRel (sortBy cmp (edges.foldl mergeEdge OrderedMap.empty).values) a b
      ↔ edgeRel edges a b := by
  have h := mergedFrom_foldl edges
  rw [← h.joined]
  simp only [edgeRel, mem_sortBy, OrderedMap.mem_values_iff]
  constructor
  · rintro ⟨edge, ⟨pair, hpair⟩, rfl, rfl⟩
    exact ⟨edge, (h.key pair edge hpair).symm ▸ hpair⟩
  · rintro ⟨edge, hedge⟩
    exact ⟨edge, ⟨_, hedge⟩, Prod.mk.inj (h.key _ edge hedge)⟩

end Deckent.ExecutionTopology
