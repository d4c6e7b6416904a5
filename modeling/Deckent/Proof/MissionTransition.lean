import Deckent.Model.MissionDispatch

/-!
# What an operation on the mission store can do

A transition takes each row to one of its successors and adds rows that are pending. It never takes a
row from an end, and takes none back to pending but by a decision on a pending request. What every
transition keeps, every sequence of operations keeps.
-/

namespace Deckent.Mission

variable {db next last : MissionDb}

/-! ### Invariants -/

def MissionDb.AwaitsApproval (db : MissionDb) (id : String) : Prop :=
  ∃ approval ∈ db.approvals, approval.workItemId = id ∧ approval.decisionState = .pending

/-- Tables that the store can reach. -/
structure Sound (db : MissionDb) : Prop where
  nodup_items : (db.items.map (·.id)).Nodup
  nodup_approvals : (db.approvals.map (·.workItemId)).Nodup
  nodup_requests : (db.approvals.map (·.requestId)).Nodup
  wantsApproval : ∀ approval ∈ db.approvals,
    ∃ row ∈ db.items, row.id = approval.workItemId ∧ row.policy ≠ .auto
  mission : ∀ row ∈ db.items, row.missionId ∈ db.missions.map (·.id)
  running : ∀ row ∈ db.items, row.status = .running → ¬ db.AwaitsApproval row.id

theorem sound_empty : Sound .empty := by
  constructor <;> simp [MissionDb.empty]

theorem Sound.row_unique (hsound : Sound db) {row other : WorkItemRow} (hrow : row ∈ db.items)
    (hother : other ∈ db.items) (hid : row.id = other.id) : row = other :=
  List.inj_on_of_nodup_map hsound.nodup_items hrow hother hid

def Spent (db : MissionDb) (id : String) : Prop :=
  ∃ row ∈ db.items, row.id = id ∧ row.status ≠ .pending ∧ ¬ db.AwaitsApproval id

def Allowed (db : MissionDb) (id : String) : Prop :=
  ∃ approval ∈ db.approvals, approval.workItemId = id ∧ approval.decisionState = .allowed

/-! ### Rows -/

structure SameItem (row successor : WorkItemRow) : Prop where
  id : successor.id = row.id
  missionId : successor.missionId = row.missionId
  policy : successor.policy = row.policy
  trigger : successor.trigger = row.trigger
  dependsOn : successor.dependsOn = row.dependsOn

theorem SameItem.refl (row : WorkItemRow) : SameItem row row := ⟨rfl, rfl, rfl, rfl, rfl⟩

theorem SameItem.trans {row successor later : WorkItemRow} (hfirst : SameItem row successor)
    (hsecond : SameItem successor later) : SameItem row later where
  id := hsecond.id.trans hfirst.id
  missionId := hsecond.missionId.trans hfirst.missionId
  policy := hsecond.policy.trans hfirst.policy
  trigger := hsecond.trigger.trans hfirst.trigger
  dependsOn := hsecond.dependsOn.trans hfirst.dependsOn

structure Succeeds (db : MissionDb) (row successor : WorkItemRow) : Prop where
  same : SameItem row successor
  terminal : row.status.isTerminal = true → successor.status = row.status
  pending : successor.status = .pending → row.status = .pending ∨ db.AwaitsApproval row.id
  running : successor.status = .running →
    row.status = .running ∨ row.status = .pending ∧ ¬ db.AwaitsApproval row.id

theorem Succeeds.refl (db : MissionDb) (row : WorkItemRow) : Succeeds db row row where
  same := .refl row
  terminal := fun _ => rfl
  pending := .inl
  running := .inl

structure Closed (row successor : WorkItemRow) : Prop where
  same : SameItem row successor
  isOpen : row.status.isOpen = true
  status : successor.status = .failed ∨ successor.status = .blocked ∨ successor.status = .parked
  kind : successor.kind = row.kind
  spec : successor.spec = row.spec
  renderAs : successor.renderAs = row.renderAs
  revision : row.revision < successor.revision

theorem closed_closed {row : WorkItemRow} {status : WorkItemStatus} (hopen : row.status.isOpen = true)
    (hstatus : status = .failed ∨ status = .blocked ∨ status = .parked) (result : Option Json)
    (now : Int) : Closed row (row.closed status result now) :=
  ⟨⟨rfl, rfl, rfl, rfl, rfl⟩, hopen, hstatus, rfl, rfl, rfl, Nat.lt_succ_self _⟩

theorem isTerminal_of_isOpen {status : WorkItemStatus} (hopen : status.isOpen = true) :
    status.isTerminal = false := by
  cases status <;> simp_all [WorkItemStatus.isOpen, WorkItemStatus.isTerminal]

theorem Closed.succeeds {row successor : WorkItemRow} (hclosed : Closed row successor) (db : MissionDb) :
    Succeeds db row successor where
  same := hclosed.same
  terminal := by
    intro hterminal
    rw [isTerminal_of_isOpen hclosed.isOpen] at hterminal
    cases hterminal
  pending := by
    intro hpending
    have hstatus := hclosed.status
    rw [hpending] at hstatus
    simp at hstatus
  running := by
    intro hrunning
    have hstatus := hclosed.status
    rw [hrunning] at hstatus
    simp at hstatus

/-! ### Transitions -/

structure ApprovalsSucceed (db next : MissionDb) : Prop where
  nodup_items : (next.approvals.map (·.workItemId)).Nodup
  nodup_requests : (next.approvals.map (·.requestId)).Nodup
  origin : ∀ approval ∈ next.approvals,
    (∃ earlier ∈ db.approvals, earlier.workItemId = approval.workItemId
        ∧ (approval.decisionState = .pending → earlier.decisionState = .pending))
      ∨ ∃ row ∈ db.items, row.id = approval.workItemId ∧ row.policy ≠ .auto ∧ row.status = .pending
        ∧ ∀ successor ∈ next.items, successor.id = row.id → successor.status ≠ .running
  allowed : ∀ id, Allowed db id → Allowed next id

structure Transition (db next : MissionDb) : Prop where
  rows : ∀ successor ∈ next.items,
    (∃ row ∈ db.items, Succeeds db row successor) ∨ successor.status = .pending
  kept : ∀ row ∈ db.items, ∃ successor ∈ next.items, Succeeds db row successor
  nodup_items : (next.items.map (·.id)).Nodup
  mission : ∀ row ∈ next.items, row.missionId ∈ next.missions.map (·.id)
  dependsOn : ∀ row ∈ db.items, ∀ successor ∈ next.items, SameItem row successor →
    next.dependsOn successor = db.dependsOn row
  approvals : ApprovalsSucceed db next

/-- What every operation of the store keeps. -/
structure Keeps (db next : MissionDb) : Prop where
  sound : Sound next
  row : ∀ row ∈ db.items, ∃ successor ∈ next.items, SameItem row successor
    ∧ (row.status.isTerminal = true → successor.status = row.status)
    ∧ next.dependsOn successor = db.dependsOn row
  spent : ∀ id, Spent db id → Spent next id
  allowed : ∀ id, Allowed db id → Allowed next id

theorem Keeps.refl (hsound : Sound db) : Keeps db db where
  sound := hsound
  row := fun row hrow => ⟨row, hrow, .refl row, fun _ => rfl, rfl⟩
  spent := fun _ hspent => hspent
  allowed := fun _ hallowed => hallowed

theorem Keeps.trans (hfirst : Keeps db next) (hsecond : Keeps next last) : Keeps db last where
  sound := hsecond.sound
  row := by
    intro row hrow
    obtain ⟨middle, hmiddle, hsame, hterminal, hdeps⟩ := hfirst.row row hrow
    obtain ⟨successor, hsuccessor, hsame', hterminal', hdeps'⟩ := hsecond.row middle hmiddle
    refine ⟨successor, hsuccessor, hsame.trans hsame', ?_, hdeps'.trans hdeps⟩
    intro hend
    have hstatus := hterminal hend
    rw [← hstatus] at hend ⊢
    exact hterminal' hend
  spent := fun id hspent => hsecond.spent id (hfirst.spent id hspent)
  allowed := fun id hallowed => hsecond.allowed id (hfirst.allowed id hallowed)

theorem Transition.awaitsApproval (hstep : Transition db next) {id : String} (hawaits : next.AwaitsApproval id) :
    db.AwaitsApproval id ∨ ∃ row ∈ db.items, row.id = id ∧ row.status = .pending
      ∧ ∀ successor ∈ next.items, successor.id = id → successor.status ≠ .running := by
  obtain ⟨approval, happroval, rfl, hpending⟩ := hawaits
  obtain ⟨earlier, hearlier, hid, hstate⟩ | ⟨row, hrow, hid, -, hstatus, hrunning⟩ :=
    hstep.approvals.origin approval happroval
  · exact .inl ⟨earlier, hearlier, hid, hstate hpending⟩
  · exact .inr ⟨row, hrow, hid, hstatus, by rwa [hid] at hrunning⟩

section Transition

variable (hsound : Sound db) (hstep : Transition db next)

include hsound hstep

theorem Transition.sound : Sound next where
  nodup_items := hstep.nodup_items
  nodup_approvals := hstep.approvals.nodup_items
  nodup_requests := hstep.approvals.nodup_requests
  mission := hstep.mission
  wantsApproval := by
    intro approval happroval
    obtain ⟨row, hrow, hid, hpolicy⟩ : ∃ row ∈ db.items, row.id = approval.workItemId
        ∧ row.policy ≠ .auto := by
      obtain ⟨earlier, hearlier, hid, -⟩ | ⟨row, hrow, hid, hpolicy, -⟩ :=
        hstep.approvals.origin approval happroval
      · rw [← hid]
        exact hsound.wantsApproval earlier hearlier
      · exact ⟨row, hrow, hid, hpolicy⟩
    obtain ⟨successor, hsuccessor, hsucceeds⟩ := hstep.kept row hrow
    exact ⟨successor, hsuccessor, hsucceeds.same.id.trans hid, hsucceeds.same.policy ▸ hpolicy⟩
  running := by
    intro successor hsuccessor hrunning hawaits
    obtain hearlier | ⟨row, -, -, -, hnot⟩ := hstep.awaitsApproval hawaits
    · obtain ⟨row, hrow, hsucceeds⟩ | hpending := hstep.rows successor hsuccessor
      · rw [hsucceeds.same.id] at hearlier
        obtain hold | ⟨-, hfree⟩ := hsucceeds.running hrunning
        · exact hsound.running row hrow hold hearlier
        · exact hfree hearlier
      · rw [hrunning] at hpending
        cases hpending
    · exact hnot successor hsuccessor rfl hrunning

theorem Transition.spent {id : String} (hspent : Spent db id) : Spent next id := by
  obtain ⟨row, hrow, rfl, hstatus, hfree⟩ := hspent
  obtain ⟨successor, hsuccessor, hsucceeds⟩ := hstep.kept row hrow
  refine ⟨successor, hsuccessor, hsucceeds.same.id, ?_, ?_⟩
  · intro hpending
    exact (hsucceeds.pending hpending).elim hstatus hfree
  · intro hawaits
    obtain hearlier | ⟨other, hother, hid, hpending, -⟩ := hstep.awaitsApproval hawaits
    · exact hfree hearlier
    · rw [hsound.row_unique hother hrow hid] at hpending
      exact hstatus hpending

theorem Transition.keeps : Keeps db next where
  sound := hstep.sound hsound
  row := by
    intro row hrow
    obtain ⟨successor, hsuccessor, hsucceeds⟩ := hstep.kept row hrow
    exact ⟨successor, hsuccessor, hsucceeds.same, hsucceeds.terminal,
      hstep.dependsOn row hrow successor hsuccessor hsucceeds.same⟩
  spent := fun _ => hstep.spent hsound
  allowed := hstep.approvals.allowed

end Transition

/-! ### Updates of items -/

structure SameGraph (db next : MissionDb) : Prop where
  authorities : next.authorities = db.authorities
  edges : next.edges = db.edges

theorem SameGraph.refl (db : MissionDb) : SameGraph db db := ⟨rfl, rfl⟩

theorem SameGraph.dependsOn (hgraph : SameGraph db next) {row successor : WorkItemRow}
    (hsame : SameItem row successor) : next.dependsOn successor = db.dependsOn row := by
  unfold MissionDb.dependsOn MissionDb.normalizedDependencies MissionDb.authority?
  rw [hgraph.authorities, hgraph.edges, hsame.missionId, hsame.id, hsame.dependsOn]

theorem map_id_of_same {rows : List WorkItemRow} {set : WorkItemRow → WorkItemRow}
    (hset : ∀ row ∈ rows, SameItem row (set row)) : (rows.map set).map (·.id) = rows.map (·.id) := by
  rw [List.map_map]
  exact List.map_congr_left fun row hrow => (hset row hrow).id

theorem transition_map (hsound : Sound db) {set : WorkItemRow → WorkItemRow}
    (hitems : next.items = db.items.map set) (hset : ∀ row ∈ db.items, Succeeds db row (set row))
    (hgraph : SameGraph db next) (hmissions : next.missions.map (·.id) = db.missions.map (·.id))
    (happrovals : ApprovalsSucceed db next) : Transition db next where
  rows := by
    intro successor hsuccessor
    rw [hitems] at hsuccessor
    obtain ⟨row, hrow, rfl⟩ := List.mem_map.mp hsuccessor
    exact .inl ⟨row, hrow, hset row hrow⟩
  kept := by
    intro row hrow
    exact ⟨set row, by rw [hitems]; exact List.mem_map_of_mem hrow, hset row hrow⟩
  nodup_items := by
    rw [hitems, map_id_of_same fun row hrow => (hset row hrow).same]
    exact hsound.nodup_items
  mission := by
    intro successor hsuccessor
    rw [hitems] at hsuccessor
    obtain ⟨row, hrow, rfl⟩ := List.mem_map.mp hsuccessor
    rw [hmissions, (hset row hrow).same.missionId]
    exact hsound.mission row hrow
  dependsOn := fun _ _ _ _ hsame => hgraph.dependsOn hsame
  approvals := happrovals

theorem approvalsSucceed_map (hsound : Sound db) {set : ApprovalRow → ApprovalRow}
    (happrovals : next.approvals = db.approvals.map set)
    (hitem : ∀ row, (set row).workItemId = row.workItemId)
    (hrequest : ∀ row, (set row).requestId = row.requestId)
    (hpending : ∀ row, (set row).decisionState = .pending → row.decisionState = .pending)
    (hallowed : ∀ row ∈ db.approvals, row.decisionState = .allowed →
      (set row).decisionState = .allowed) : ApprovalsSucceed db next where
  nodup_items := by
    rw [happrovals, List.map_map]
    simpa only [Function.comp_def, hitem] using hsound.nodup_approvals
  nodup_requests := by
    rw [happrovals, List.map_map]
    simpa only [Function.comp_def, hrequest] using hsound.nodup_requests
  origin := by
    intro approval happroval
    rw [happrovals] at happroval
    obtain ⟨row, hrow, rfl⟩ := List.mem_map.mp happroval
    exact .inl ⟨row, hrow, (hitem row).symm, hpending row⟩
  allowed := by
    rintro id ⟨row, hrow, hid, hstate⟩
    refine ⟨set row, ?_, (hitem row).trans hid, hallowed row hrow hstate⟩
    rw [happrovals]
    exact List.mem_map_of_mem hrow

theorem approvalsSucceed_of_eq (hsound : Sound db) (happrovals : next.approvals = db.approvals) :
    ApprovalsSucceed db next :=
  approvalsSucceed_map hsound (by simpa using happrovals) (fun _ => rfl) (fun _ => rfl)
    (fun _ => id) (fun _ _ => id)

theorem keeps_of_items_eq (hsound : Sound db) (hitems : next.items = db.items)
    (hgraph : SameGraph db next) (hmissions : next.missions.map (·.id) = db.missions.map (·.id))
    (happrovals : ApprovalsSucceed db next) : Keeps db next :=
  Transition.keeps hsound
    (transition_map hsound (by simpa using hitems) (fun row _ => .refl db row) hgraph hmissions
      happrovals)

theorem keeps_updateItems (hsound : Sound db) {selects : WorkItemRow → Bool}
    {set : WorkItemRow → WorkItemRow}
    (hset : ∀ row ∈ db.items, selects row = true → Succeeds db row (set row)) :
    Keeps db (db.updateItems selects set) := by
  refine Transition.keeps hsound
    (transition_map hsound rfl ?_ ⟨rfl, rfl⟩ rfl (approvalsSucceed_of_eq hsound rfl))
  intro row hrow
  by_cases hselects : selects row = true
  · rw [if_pos hselects]
    exact hset row hrow hselects
  · rw [if_neg hselects]
    exact .refl db row

/-! ### Updates that only close items -/

/-- Some items are closed, and the other tables that a claim reads are the same. -/
structure Closes (db next : MissionDb) : Prop where
  rows : ∃ set : WorkItemRow → WorkItemRow, next.items = db.items.map set
    ∧ ∀ row ∈ db.items, set row = row ∨ Closed row (set row)
  graph : SameGraph db next
  missions : next.missions = db.missions
  approvals : next.approvals = db.approvals
  fences : next.fences = db.fences

theorem Closes.refl (db : MissionDb) : Closes db db where
  rows := ⟨id, by simp, fun _ _ => .inl rfl⟩
  graph := .refl db
  missions := rfl
  approvals := rfl
  fences := rfl

theorem Closes.trans (hfirst : Closes db next) (hsecond : Closes next last) : Closes db last := by
  obtain ⟨first, hitems, hrows⟩ := hfirst.rows
  obtain ⟨second, hitems', hrows'⟩ := hsecond.rows
  refine ⟨⟨second ∘ first, by rw [hitems', hitems, List.map_map], ?_⟩, ?_,
    hsecond.missions.trans hfirst.missions, hsecond.approvals.trans hfirst.approvals,
    hsecond.fences.trans hfirst.fences⟩
  · intro row hrow
    have hmiddle := hrows' (first row) (by rw [hitems]; exact List.mem_map_of_mem hrow)
    obtain hsame | hclosed := hrows row hrow
    · simpa only [Function.comp_apply, hsame] using hmiddle
    · right
      obtain hsame | hlater := hmiddle
      · simpa only [Function.comp_apply, hsame] using hclosed
      · exact ⟨hclosed.same.trans hlater.same, hclosed.isOpen, hlater.status,
          hlater.kind.trans hclosed.kind, hlater.spec.trans hclosed.spec,
          hlater.renderAs.trans hclosed.renderAs, hclosed.revision.trans hlater.revision⟩
  · exact ⟨hsecond.graph.authorities.trans hfirst.graph.authorities,
      hsecond.graph.edges.trans hfirst.graph.edges⟩

theorem Closes.keeps (hcloses : Closes db next) (hsound : Sound db) : Keeps db next := by
  obtain ⟨set, hitems, hrows⟩ := hcloses.rows
  refine Transition.keeps hsound (transition_map hsound hitems ?_ hcloses.graph
    (by rw [hcloses.missions]) (approvalsSucceed_of_eq hsound hcloses.approvals))
  intro row hrow
  obtain hsame | hclosed := hrows row hrow
  · rw [hsame]
    exact .refl db row
  · exact hclosed.succeeds db

theorem closes_updateItems {selects : WorkItemRow → Bool} {set : WorkItemRow → WorkItemRow}
    (hset : ∀ row ∈ db.items, selects row = true → Closed row (set row)) :
    Closes db (db.updateItems selects set) := by
  refine ⟨⟨fun row => if selects row then set row else row, rfl, ?_⟩, ⟨rfl, rfl⟩, rfl, rfl, rfl⟩
  intro row hrow
  by_cases hselects : selects row = true
  · simp only [if_pos hselects]
    exact .inr (hset row hrow hselects)
  · exact .inl (if_neg hselects)

theorem closes_foldl {α : Type} {step : MissionDb → α → MissionDb}
    (hstep : ∀ db entry, Closes db (step db entry)) (entries : List α) (db : MissionDb) :
    Closes db (entries.foldl step db) := by
  induction entries generalizing db with
  | nil => exact .refl db
  | cons entry rest ih => exact (hstep db entry).trans (ih (step db entry))

section Backward

variable (hcloses : Closes db next)

include hcloses

theorem Closes.mem_of_pending {row : WorkItemRow} (hrow : row ∈ next.items)
    (hpending : row.status = .pending) : row ∈ db.items := by
  obtain ⟨set, hitems, hrows⟩ := hcloses.rows
  rw [hitems] at hrow
  obtain ⟨earlier, hearlier, rfl⟩ := List.mem_map.mp hrow
  obtain hsame | hclosed := hrows earlier hearlier
  · rwa [hsame]
  · have hstatus := hclosed.status
    rw [hpending] at hstatus
    simp at hstatus

theorem Closes.isDone {missionId id : String} (hdone : next.isDone missionId id = true) :
    db.isDone missionId id = true := by
  unfold MissionDb.isDone at hdone ⊢
  obtain ⟨set, hitems, hrows⟩ := hcloses.rows
  rw [hitems, List.any_map, List.any_eq_true] at hdone
  obtain ⟨row, hrow, hmatches⟩ := hdone
  obtain hsame | hclosed := hrows row hrow
  · rw [Function.comp_apply, hsame] at hmatches
    exact List.any_eq_true.mpr ⟨row, hrow, hmatches⟩
  · have hstatus := hclosed.status
    simp only [Function.comp_apply, Bool.and_eq_true, decide_eq_true_eq] at hmatches
    rw [hmatches.2] at hstatus
    simp at hstatus

end Backward

end Deckent.Mission
