import Deckent.Proof.NotDispatched

/-!
# What blocks a logical task

The circuit breaker walks from a logical task along the dependencies of logical tasks. It reads a dependency as
the id of a root, so it sees the failed lineages that are reached by naming roots. A dependency that names a
repair leads it nowhere.
-/

namespace Deckent.TaskLineage

open Relation

/-! ### The walk -/

section Walk

variable {unresolvedIds : List String} {rootsById : OrderedMap String Task}

def LeadsOn (rootsById : OrderedMap String Task) (id dependency : String) : Prop :=
  dependency ∈ dependenciesOf rootsById id ∧ dependency ≠ ""

theorem findBlocker_sound {fuel : Nat} {pending : List String} {seen : Finset String} {blocker : String}
    (hfound : findBlocker unresolvedIds rootsById fuel pending seen = some blocker) :
    blocker ∈ unresolvedIds ∧ ∃ dependency ∈ pending, dependency ≠ ""
      ∧ ReflTransGen (LeadsOn rootsById) dependency blocker := by
  induction fuel generalizing pending seen with
  | zero => cases hfound
  | succ fuel ih =>
      cases pending with
      | nil => cases hfound
      | cons dependency pending =>
          unfold findBlocker at hfound
          split at hfound
          · obtain ⟨hunresolved, other, hother, hreaches⟩ := ih hfound
            exact ⟨hunresolved, other, List.mem_cons_of_mem _ hother, hreaches⟩
          · next hnew =>
              have hne : dependency ≠ "" := fun heq => hnew (.inl heq)
              split at hfound
              · next hunresolved =>
                  obtain rfl := Option.some.inj hfound
                  exact ⟨by simpa using hunresolved, _, List.mem_cons_self, hne, .refl⟩
              · obtain ⟨hunresolved, other, hother, hotherNe, hreaches⟩ := ih hfound
                refine ⟨hunresolved, ?_⟩
                rcases List.mem_append.mp hother with hnext | hold
                · exact ⟨dependency, List.mem_cons_self, hne,
                    .head ⟨List.mem_reverse.mp hnext, hotherNe⟩ hreaches⟩
                · exact ⟨other, List.mem_cons_of_mem _ hold, hotherNe, hreaches⟩

def walkWork (rootsById : OrderedMap String Task) (pending : List String) (seen : Finset String) : Nat :=
  searchWork (dependenciesOf rootsById) rootsById.keys.toFinset pending seen

theorem walkWork_skip (dependency : String) (pending : List String) (seen : Finset String) :
    walkWork rootsById (dependency :: pending) seen = walkWork rootsById pending seen + 1 := by
  simp only [walkWork, searchWork, List.length_cons]
  omega

theorem dependenciesOf_of_unknown {id : String} (hunknown : id ∉ rootsById.keys) :
    dependenciesOf rootsById id = [] := by
  rw [OrderedMap.mem_keys_iff] at hunknown
  unfold dependenciesOf
  cases hget : rootsById.get? id with
  | none => rfl
  | some task => exact absurd ⟨task, hget⟩ hunknown

variable (rootsById) in
theorem walkWork_take {dependency : String} (pending : List String) {seen : Finset String}
    (hnew : dependency ∉ seen) :
    walkWork rootsById ((dependenciesOf rootsById dependency).reverse ++ pending) (insert dependency seen) + 1
      = walkWork rootsById (dependency :: pending) seen := by
  by_cases hknown : dependency ∈ rootsById.keys
  · have hexpand := searchWork_expand (dependenciesOf rootsById) pending (List.mem_toFinset.mpr hknown) hnew
    rw [walkWork, walkWork, ← hexpand]
    simp only [searchWork, List.length_append, List.length_reverse]
    omega
  · have hvertex : dependency ∉ rootsById.keys.toFinset := fun hmem => hknown (List.mem_toFinset.mp hmem)
    rw [dependenciesOf_of_unknown hknown, walkWork_skip]
    simp only [walkWork, searchWork, List.reverse_nil, List.nil_append, Finset.sdiff_insert_of_notMem hvertex]

theorem findBlocker_fuel {fuel more : Nat} {pending : List String} {seen : Finset String}
    (hfuel : walkWork rootsById pending seen < fuel) (hmore : fuel ≤ more) :
    findBlocker unresolvedIds rootsById more pending seen
      = findBlocker unresolvedIds rootsById fuel pending seen := by
  induction fuel generalizing more pending seen with
  | zero => omega
  | succ fuel ih =>
      obtain ⟨more, rfl⟩ : ∃ less, more = less + 1 := ⟨more - 1, by omega⟩
      cases pending with
      | nil => rfl
      | cons dependency pending =>
          unfold findBlocker
          split
          · rw [walkWork_skip] at hfuel
            exact ih (by omega) (by omega)
          · next hnew =>
              have hwork := walkWork_take rootsById pending fun hseen => hnew (.inr hseen)
              split
              · rfl
              · exact ih (by omega) (by omega)

structure Walked (unresolvedIds : List String) (rootsById : OrderedMap String Task) (pending : List String)
    (seen : Finset String) : Prop where
  leadsOn : ∀ id ∈ seen, ∀ dependency, LeadsOn rootsById id dependency → dependency ∈ seen ∨ dependency ∈ pending
  resolved : ∀ id ∈ seen, id ∉ unresolvedIds

/-- A walk that finds nothing has seen all there is. -/
theorem walked_of_findBlocker {fuel : Nat} {pending : List String} {seen : Finset String}
    (hfuel : walkWork rootsById pending seen < fuel)
    (hnone : findBlocker unresolvedIds rootsById fuel pending seen = none)
    (hwalked : Walked unresolvedIds rootsById pending seen) :
    ∃ last, seen ⊆ last ∧ (∀ id ∈ pending, id ≠ "" → id ∈ last) ∧ Walked unresolvedIds rootsById [] last := by
  induction fuel generalizing pending seen with
  | zero => omega
  | succ fuel ih =>
      cases pending with
      | nil => exact ⟨seen, subset_rfl, by simp, hwalked⟩
      | cons dependency pending =>
          unfold findBlocker at hnone
          split at hnone
          · next hskip =>
              have hrest : Walked unresolvedIds rootsById pending seen := by
                refine ⟨fun id hid other hother => ?_, hwalked.resolved⟩
                rcases hwalked.leadsOn id hid other hother with hseen | hpending
                · exact .inl hseen
                · rcases List.mem_cons.mp hpending with rfl | hpending
                  · exact .inl (hskip.resolve_left hother.2)
                  · exact .inr hpending
              rw [walkWork_skip] at hfuel
              obtain ⟨last, hsub, hmet, hlast⟩ := ih (by omega) hnone hrest
              refine ⟨last, hsub, fun id hid hne => ?_, hlast⟩
              rcases List.mem_cons.mp hid with rfl | hid
              · exact hsub (hskip.resolve_left hne)
              · exact hmet id hid hne
          · next hnew =>
              have hwork := walkWork_take rootsById pending fun hseen => hnew (.inr hseen)
              split at hnone
              · cases hnone
              · next hresolved =>
                  have htaken : Walked unresolvedIds rootsById
                      ((dependenciesOf rootsById dependency).reverse ++ pending) (insert dependency seen) := by
                    refine ⟨fun id hid other hother => ?_, fun id hid => ?_⟩
                    · rcases Finset.mem_insert.mp hid with rfl | hid
                      · exact .inr (List.mem_append_left _ (List.mem_reverse.mpr hother.1))
                      · rcases hwalked.leadsOn id hid other hother with hseen | hpending
                        · exact .inl (Finset.mem_insert_of_mem hseen)
                        · rcases List.mem_cons.mp hpending with rfl | hpending
                          · exact .inl (Finset.mem_insert_self _ _)
                          · exact .inr (List.mem_append_right _ hpending)
                    · rcases Finset.mem_insert.mp hid with rfl | hid
                      · simpa using hresolved
                      · exact hwalked.resolved id hid
                  obtain ⟨last, hsub, hmet, hlast⟩ := ih (by omega) hnone htaken
                  refine ⟨last, (Finset.subset_insert _ _).trans hsub, fun id hid hne => ?_, hlast⟩
                  rcases List.mem_cons.mp hid with rfl | hid
                  · exact hsub (Finset.mem_insert_self _ _)
                  · exact hmet id (List.mem_append_right _ hid) hne

theorem walkWork_lt_blockerFuel (rootsById : OrderedMap String Task) (task : Task) :
    walkWork rootsById (task.dependencies.getD []).reverse ∅ < blockerFuel rootsById task := by
  have hsum : ∑ id ∈ rootsById.keys.toFinset, (dependenciesOf rootsById id).length
      = (rootsById.entries.map fun entry => (dependenciesOf rootsById entry.1).length).sum := by
    rw [OrderedMap.keys, List.sum_toFinset _ rootsById.nodupKeys, List.map_map]
    rfl
  simp only [walkWork, searchWork, blockerFuel, List.length_reverse, Finset.sdiff_empty, hsum]
  omega

theorem isSome_findUnresolvedLineageBlocker {task : Task} :
    (findUnresolvedLineageBlocker unresolvedIds rootsById task).isSome = true
      ↔ ∃ dependency ∈ task.dependencies.getD [], dependency ≠ ""
        ∧ ∃ blocker ∈ unresolvedIds, ReflTransGen (LeadsOn rootsById) dependency blocker := by
  constructor
  · intro hsome
    obtain ⟨blocker, hblocker⟩ := Option.isSome_iff_exists.mp hsome
    obtain ⟨hunresolved, dependency, hmem, hne, hreaches⟩ := findBlocker_sound hblocker
    exact ⟨dependency, List.mem_reverse.mp hmem, hne, blocker, hunresolved, hreaches⟩
  · rintro ⟨dependency, hmem, hne, blocker, hunresolved, hreaches⟩
    by_contra hsome
    have hnone : findBlocker unresolvedIds rootsById (blockerFuel rootsById task)
        (task.dependencies.getD []).reverse ∅ = none := Option.not_isSome_iff_eq_none.mp hsome
    obtain ⟨last, -, hmet, hlast⟩ := walked_of_findBlocker (walkWork_lt_blockerFuel rootsById task) hnone
      ⟨by simp, by simp⟩
    have hseen : blocker ∈ last := by
      clear hunresolved
      induction hreaches with
      | refl => exact hmet _ (List.mem_reverse.mpr hmem) hne
      | tail _ hstep ih => exact (hlast.leadsOn _ ih _ hstep).resolve_right List.not_mem_nil
    exact hlast.resolved blocker hseen hunresolved

end Walk

/-! ### Lineages that wait for a failed one -/

section Lineages

variable (localeCompare : LocaleCompare) (tasks : List Task) (evaluations : Evaluations)
  (settlements : NotDispatchedSettlements)

def IsFailed (lineage : TaskLineage) : Prop :=
  settlementState lineage.resolvedTask.status (evaluations.get? lineage.resolvedTask.id)
    (settlements.get? lineage.resolvedTask.id) = .failed

def NamesRoot (lineage other : TaskLineage) : Prop :=
  other ∈ foldTaskLineages localeCompare tasks ∧ other.rootId ∈ lineage.rootTask.dependencies.getD []
    ∧ other.rootId ≠ ""

def WaitsForFailed (lineage : TaskLineage) : Prop :=
  ∃ failed, TransGen (lineageIndex localeCompare tasks).DependsOn lineage failed
    ∧ IsFailed evaluations settlements failed

def NamesFailed (lineage : TaskLineage) : Prop :=
  ∃ failed, TransGen (NamesRoot localeCompare tasks) lineage failed ∧ IsFailed evaluations settlements failed

/-- The blocked tasks of the decision are the logical tasks that are not dispatched yet and wait for a failed
lineage. -/
def ReportsBlocked (policy : FixCircuitBreakerConfig) : Prop :=
  ∀ id, id ∈ (evaluateFixCircuitBreaker localeCompare tasks evaluations policy settlements).blockedDependentTaskIds
    ↔ ∃ lineage ∈ foldTaskLineages localeCompare tasks, lineage.rootId = id
      ∧ awaitsDispatch evaluations lineage.rootTask = true
      ∧ WaitsForFailed localeCompare tasks evaluations settlements lineage

variable {localeCompare tasks evaluations settlements}

theorem id_rootTask {lineage : TaskLineage} (hlineage : lineage ∈ foldTaskLineages localeCompare tasks) :
    lineage.rootTask.id = lineage.rootId :=
  (mem_of_get?_indexById (rootTask_spec hlineage)).2

variable (localeCompare tasks) in
def logicalRoots : List Task := (foldTaskLineages localeCompare tasks).map (·.rootTask)

theorem nodup_logicalRoots : ((logicalRoots localeCompare tasks).map Task.id).Nodup := by
  have hids : (logicalRoots localeCompare tasks).map Task.id
      = (foldTaskLineages localeCompare tasks).map TaskLineage.rootId := by
    rw [logicalRoots, List.map_map]
    exact List.map_congr_left fun lineage hlineage => id_rootTask hlineage
  rw [hids]
  refine List.Nodup.map_on (fun left hleft right hright => lineage_eq_of_rootId hleft hright) ?_
  exact nodup_foldTaskLineages tasks

theorem dependenciesOf_rootId {lineage : TaskLineage} (hlineage : lineage ∈ foldTaskLineages localeCompare tasks) :
    dependenciesOf (indexById (logicalRoots localeCompare tasks)) lineage.rootId
      = lineage.rootTask.dependencies.getD [] := by
  have hget := get?_indexById nodup_logicalRoots (List.mem_map_of_mem hlineage)
  rw [id_rootTask hlineage] at hget
  rw [dependenciesOf, hget]
  rfl

theorem exists_of_mem_dependenciesOf {id dependency : String}
    (hmem : dependency ∈ dependenciesOf (indexById (logicalRoots localeCompare tasks)) id) :
    ∃ lineage ∈ foldTaskLineages localeCompare tasks, lineage.rootId = id := by
  unfold dependenciesOf at hmem
  cases hget : (indexById (logicalRoots localeCompare tasks)).get? id with
  | none =>
      rw [hget] at hmem
      cases hmem
  | some task =>
      obtain ⟨htask, rfl⟩ := mem_of_get?_indexById hget
      obtain ⟨lineage, hlineage, rfl⟩ := List.mem_map.mp htask
      exact ⟨lineage, hlineage, (id_rootTask hlineage).symm⟩

theorem namesRoot_of_leadsOn {dependency : String} {failed : TaskLineage}
    (hfailed : failed ∈ foldTaskLineages localeCompare tasks)
    (hreaches : ReflTransGen (LeadsOn (indexById (logicalRoots localeCompare tasks))) dependency failed.rootId)
    {lineage : TaskLineage} (hmem : dependency ∈ lineage.rootTask.dependencies.getD []) (hne : dependency ≠ "") :
    TransGen (NamesRoot localeCompare tasks) lineage failed := by
  induction hreaches using ReflTransGen.head_induction_on generalizing lineage with
  | refl => exact .single ⟨hfailed, hmem, hne⟩
  | head hstep _ ih =>
      obtain ⟨middle, hmiddle, rfl⟩ := exists_of_mem_dependenciesOf hstep.1
      have hnext := hstep.1
      rw [dependenciesOf_rootId hmiddle] at hnext
      exact .head ⟨hmiddle, hmem, hne⟩ (ih hnext hstep.2)

theorem leadsOn_of_namesRoot {lineage failed : TaskLineage}
    (hreaches : TransGen (NamesRoot localeCompare tasks) lineage failed) :
    ∃ dependency ∈ lineage.rootTask.dependencies.getD [], dependency ≠ ""
      ∧ ReflTransGen (LeadsOn (indexById (logicalRoots localeCompare tasks))) dependency failed.rootId := by
  induction hreaches using TransGen.head_induction_on with
  | single hstep => exact ⟨failed.rootId, hstep.2.1, hstep.2.2, .refl⟩
  | head hstep _ ih =>
      obtain ⟨dependency, hmem, hne, hreaches⟩ := ih
      rw [← dependenciesOf_rootId hstep.1] at hmem
      exact ⟨_, hstep.2.1, hstep.2.2, .head ⟨hmem, hne⟩ hreaches⟩

theorem mem_of_namesRoot {lineage failed : TaskLineage}
    (hreaches : TransGen (NamesRoot localeCompare tasks) lineage failed) :
    failed ∈ foldTaskLineages localeCompare tasks := by
  obtain ⟨_, -, hlast⟩ := TransGen.tail'_iff.mp hreaches
  exact hlast.1

variable (localeCompare tasks evaluations settlements) in
def unresolvedIds : List String :=
  ((projectTaskLineageSettlements localeCompare tasks evaluations settlements).filter
    (·.state = .failed)).map (·.rootId)

theorem mem_unresolvedIds {id : String} : id ∈ unresolvedIds localeCompare tasks evaluations settlements
    ↔ ∃ lineage ∈ foldTaskLineages localeCompare tasks, lineage.rootId = id
      ∧ IsFailed evaluations settlements lineage := by
  unfold unresolvedIds projectTaskLineageSettlements IsFailed
  simp only [List.mem_map, List.mem_filter, decide_eq_true_eq]
  constructor
  · rintro ⟨-, ⟨⟨lineage, hlineage, rfl⟩, hfailed⟩, rfl⟩
    exact ⟨lineage, hlineage, rfl, hfailed⟩
  · rintro ⟨lineage, hlineage, rfl, hfailed⟩
    exact ⟨_, ⟨⟨lineage, hlineage, rfl⟩, hfailed⟩, rfl⟩

theorem isSome_blocker_rootTask {lineage : TaskLineage} :
    (findUnresolvedLineageBlocker (unresolvedIds localeCompare tasks evaluations settlements)
      (indexById (logicalRoots localeCompare tasks)) lineage.rootTask).isSome = true
      ↔ NamesFailed localeCompare tasks evaluations settlements lineage := by
  rw [isSome_findUnresolvedLineageBlocker]
  constructor
  · rintro ⟨dependency, hmem, hne, blocker, hblocker, hreaches⟩
    obtain ⟨failed, hfailed, rfl, hstate⟩ := mem_unresolvedIds.mp hblocker
    exact ⟨failed, namesRoot_of_leadsOn hfailed hreaches hmem hne, hstate⟩
  · rintro ⟨failed, hnames, hstate⟩
    obtain ⟨dependency, hmem, hne, hreaches⟩ := leadsOn_of_namesRoot hnames
    exact ⟨dependency, hmem, hne, failed.rootId,
      mem_unresolvedIds.mpr ⟨failed, mem_of_namesRoot hnames, rfl, hstate⟩, hreaches⟩

theorem mem_blockedDependentTaskIds {policy : FixCircuitBreakerConfig} {id : String} :
    id ∈ (evaluateFixCircuitBreaker localeCompare tasks evaluations policy settlements).blockedDependentTaskIds
      ↔ ∃ lineage ∈ foldTaskLineages localeCompare tasks, lineage.rootId = id
        ∧ awaitsDispatch evaluations lineage.rootTask = true
        ∧ NamesFailed localeCompare tasks evaluations settlements lineage := by
  have hroots : (projectTaskLineageSettlements localeCompare tasks evaluations settlements).map (·.rootTask)
      = logicalRoots localeCompare tasks := by
    rw [projectTaskLineageSettlements, logicalRoots, List.map_map]
    rfl
  change id ∈ (blockedDependents evaluations (unresolvedIds localeCompare tasks evaluations settlements)
    ((projectTaskLineageSettlements localeCompare tasks evaluations settlements).map (·.rootTask))).map (·.1.id) ↔ _
  rw [hroots]
  unfold blockedDependents
  simp only [List.mem_map, List.mem_filterMap, Option.ite_none_right_eq_some, Option.map_eq_some_iff]
  constructor
  · rintro ⟨-, ⟨task, htask, hawaits, blocker, hblocker, rfl⟩, rfl⟩
    obtain ⟨lineage, hlineage, rfl⟩ := List.mem_map.mp htask
    exact ⟨lineage, hlineage, (id_rootTask hlineage).symm, hawaits,
      isSome_blocker_rootTask.mp (Option.isSome_iff_exists.mpr ⟨blocker, hblocker⟩)⟩
  · rintro ⟨lineage, hlineage, rfl, hawaits, hfailed⟩
    obtain ⟨blocker, hblocker⟩ := Option.isSome_iff_exists.mp (isSome_blocker_rootTask.mpr hfailed)
    exact ⟨_, ⟨lineage.rootTask, List.mem_map_of_mem hlineage, hawaits, blocker, hblocker, rfl⟩,
      id_rootTask hlineage⟩

/-! ### Dependencies on repairs -/

theorem dependencyRootId_rootId (hnodup : (tasks.map Task.id).Nodup)
    (hacyclic : Acyclic (Repairs (indexById tasks))) {lineage : TaskLineage}
    (hlineage : lineage ∈ foldTaskLineages localeCompare tasks) :
    (lineageIndex localeCompare tasks).dependencyRootId lineage.rootId = lineage.rootId := by
  have hspec := rootTask_spec hlineage
  obtain ⟨hroot, hid⟩ := mem_of_get?_indexById hspec
  have hself : resolveTaskLineageRootId lineage.rootTask (indexById tasks) = lineage.rootTask.id := by
    obtain ⟨rootId, hne, rfl⟩ := mem_foldTaskLineages.mp hlineage
    obtain ⟨task, htask⟩ := List.exists_mem_of_ne_nil _ hne
    obtain ⟨htask, hrootId⟩ := mem_lineageGroup.mp htask
    exact rootId_rootId hnodup hacyclic htask hroot (hid.trans hrootId.symm)
  unfold LineageIndex.dependencyRootId lineageIndex
  rw [hspec]
  exact hself.trans hid

theorem waitsForFailed_of_namesFailed (hnodup : (tasks.map Task.id).Nodup)
    (hacyclic : Acyclic (Repairs (indexById tasks))) {lineage : TaskLineage}
    (hnames : NamesFailed localeCompare tasks evaluations settlements lineage) :
    WaitsForFailed localeCompare tasks evaluations settlements lineage := by
  obtain ⟨failed, hreaches, hstate⟩ := hnames
  have hdepends (lineage other : TaskLineage) (hstep : NamesRoot localeCompare tasks lineage other) :
      (lineageIndex localeCompare tasks).DependsOn lineage other :=
    dependsOn_iff.mpr ⟨hstep.1, other.rootId, hstep.2.1, dependencyRootId_rootId hnodup hacyclic hstep.1⟩
  exact ⟨failed, hreaches.lift id hdepends, hstate⟩

/-- Where a logical task that is not dispatched yet waits for a failed lineage, it waits for one by dependencies
that name roots. -/
def NamesBlockers (localeCompare : LocaleCompare) (tasks : List Task) (evaluations : Evaluations)
    (settlements : NotDispatchedSettlements) : Prop :=
  ∀ lineage ∈ foldTaskLineages localeCompare tasks, awaitsDispatch evaluations lineage.rootTask = true →
    WaitsForFailed localeCompare tasks evaluations settlements lineage →
      NamesFailed localeCompare tasks evaluations settlements lineage

theorem reportsBlocked_iff (policy : FixCircuitBreakerConfig) (hnodup : (tasks.map Task.id).Nodup)
    (hacyclic : Acyclic (Repairs (indexById tasks))) :
    ReportsBlocked localeCompare tasks evaluations settlements policy
      ↔ NamesBlockers localeCompare tasks evaluations settlements := by
  unfold ReportsBlocked
  simp only [mem_blockedDependentTaskIds]
  constructor
  · intro hreports lineage hlineage hawaits hwaits
    obtain ⟨other, hother, hroot, -, hnames⟩ := (hreports lineage.rootId).mpr ⟨lineage, hlineage, rfl, hawaits, hwaits⟩
    rwa [lineage_eq_of_rootId hother hlineage hroot] at hnames
  · intro hnamed id
    refine exists_congr fun lineage => and_congr_right fun hlineage => and_congr_right fun _ =>
      and_congr_right fun hawaits => ?_
    exact ⟨waitsForFailed_of_namesFailed hnodup hacyclic, hnamed lineage hlineage hawaits⟩

/-- No arrangement of the tasks changes the decision. -/
def DecidesOrderFree (localeCompare : LocaleCompare) (tasks : List Task) (evaluations : Evaluations)
    (settlements : NotDispatchedSettlements) (policy : FixCircuitBreakerConfig) : Prop :=
  ∀ arranged, tasks.Perm arranged →
    evaluateFixCircuitBreaker localeCompare arranged evaluations policy settlements
      = evaluateFixCircuitBreaker localeCompare tasks evaluations policy settlements

theorem decidesOrderFree (policy : FixCircuitBreakerConfig) (hnodup : (tasks.map Task.id).Nodup)
    (hapart : ∀ a ∈ tasks, ∀ b ∈ tasks, localeCompare.compare a.id b.id = 0 → a.id = b.id) :
    DecidesOrderFree localeCompare tasks evaluations settlements policy := by
  intro arranged hperm
  unfold evaluateFixCircuitBreaker projectTaskLineageSettlements
  rw [foldTaskLineages_perm hperm hnodup hapart]

/-- The walks of a decision end: more fuel finds nothing else. -/
def WalksEnd (localeCompare : LocaleCompare) (tasks : List Task) (evaluations : Evaluations)
    (settlements : NotDispatchedSettlements) : Prop :=
  ∀ task, ∀ fuel ≥ blockerFuel (indexById (logicalRoots localeCompare tasks)) task,
    findBlocker (unresolvedIds localeCompare tasks evaluations settlements)
      (indexById (logicalRoots localeCompare tasks)) fuel (task.dependencies.getD []).reverse ∅
      = findUnresolvedLineageBlocker (unresolvedIds localeCompare tasks evaluations settlements)
        (indexById (logicalRoots localeCompare tasks)) task

/-- The decision names the blocked tasks where every task that waits for a failed lineage waits for one by
naming roots. It ends for every list, and is the same for all arrangements of tasks whose ids compare apart. -/
theorem evaluateFixCircuitBreaker_reportsBlocked_iff (localeCompare : LocaleCompare) (tasks : List Task)
    (evaluations : Evaluations) (settlements : NotDispatchedSettlements) (policy : FixCircuitBreakerConfig)
    (hnodup : (tasks.map Task.id).Nodup) (hacyclic : Acyclic (Repairs (indexById tasks))) :
    (ReportsBlocked localeCompare tasks evaluations settlements policy
        ↔ NamesBlockers localeCompare tasks evaluations settlements)
      ∧ WalksEnd localeCompare tasks evaluations settlements
      ∧ ((∀ a ∈ tasks, ∀ b ∈ tasks, localeCompare.compare a.id b.id = 0 → a.id = b.id) →
        DecidesOrderFree localeCompare tasks evaluations settlements policy) :=
  ⟨reportsBlocked_iff policy hnodup hacyclic,
    fun task _ hfuel => findBlocker_fuel (walkWork_lt_blockerFuel _ task) hfuel,
    decidesOrderFree policy hnodup⟩

end Lineages

/-! ### A dependency on a repair -/

/-- A failed task whose repair has failed, and tasks that depend on the task and on the repair. -/
def dependentsOfFailure : List Task :=
  [{ id := "root", status := .noGo },
    { id := "fix", status := .noGo, isPriorityFix := some true, fixForTaskId := some "root" },
    { id := "named", dependencies := some ["root"] },
    { id := "waiting", dependencies := some ["fix"] }]

def lenientPolicy : FixCircuitBreakerConfig := ⟨true, 5, 50⟩

theorem acyclic_dependentsOfFailure : Acyclic (Repairs (indexById dependentsOfFailure)) :=
  SchedulerState.acyclic_star "root" (by decide)

theorem evaluateFixCircuitBreaker_reportsBlocked_iff_named :
    (ReportsBlocked SchedulerState.canonicalCollation dependentsOfFailure .empty .empty lenientPolicy
        ↔ NamesBlockers SchedulerState.canonicalCollation dependentsOfFailure .empty .empty)
      ∧ DecidesOrderFree SchedulerState.canonicalCollation dependentsOfFailure .empty .empty lenientPolicy := by
  obtain ⟨hiff, -, hfree⟩ := evaluateFixCircuitBreaker_reportsBlocked_iff SchedulerState.canonicalCollation
    dependentsOfFailure .empty .empty lenientPolicy (by decide) acyclic_dependentsOfFailure
  exact ⟨hiff, hfree (by decide +kernel)⟩

/-- The task that depends on the repair waits for a failed lineage, and is not reported. -/
theorem not_reportsBlocked_dependentsOfFailure : (dependentsOfFailure.map Task.id).Nodup
    ∧ Acyclic (Repairs (indexById dependentsOfFailure))
    ∧ ¬ ReportsBlocked SchedulerState.canonicalCollation dependentsOfFailure .empty .empty lenientPolicy := by
  refine ⟨by decide, acyclic_dependentsOfFailure, fun hreports => ?_⟩
  have hmem (rootId : String) (hgroup : lineageGroup dependentsOfFailure rootId ≠ []) :
      lineageAt SchedulerState.canonicalCollation dependentsOfFailure rootId
        ∈ foldTaskLineages SchedulerState.canonicalCollation dependentsOfFailure :=
    mem_foldTaskLineages.mpr ⟨rootId, hgroup, rfl⟩
  have hdepends : (lineageIndex SchedulerState.canonicalCollation dependentsOfFailure).DependsOn
      (lineageAt SchedulerState.canonicalCollation dependentsOfFailure "waiting")
      (lineageAt SchedulerState.canonicalCollation dependentsOfFailure "root") :=
    dependsOn_iff.mpr ⟨hmem "root" (by decide +kernel), "fix", by decide +kernel, by decide +kernel⟩
  have hfailed : IsFailed .empty .empty
      (lineageAt SchedulerState.canonicalCollation dependentsOfFailure "root") := by
    unfold IsFailed
    decide +kernel
  have hreported := (hreports "waiting").mpr ⟨_, hmem "waiting" (by decide +kernel), rfl, by decide +kernel,
    _, .single hdepends, hfailed⟩
  revert hreported
  decide +kernel

end Deckent.TaskLineage
