import Deckent.Lib.Fallible
import Deckent.Proof.CommandIdempotency

/-!
# Reading a flow while it is written

`iterateFlowEvents` reads a flow page by page, and coordinators may append between two of its pages. A
page starts behind the last event that was yielded, so what has been yielded is always a beginning of
the log, and when the iterator returns it has yielded the log as it was at its last read.
-/

namespace Deckent.RunFlow

variable {ι : Type} [DecidableEq ι] {hashPayload : List RunFlowEvent → String} {flowId : String}
  {pageSize : Nat} {table : FlowTable} {iterator : FlowEventIterator}

/-- A coordinator takes a turn, or the reader of one flow reads its next page. -/
inductive ReadingTurn (ι : Type) where
  | coordinator (turn : ι × Action)
  | readPage

structure Reading (ι : Type) where
  system : Processes ι RunFlowStore Coordinator
  iterator : FlowEventIterator

def Reading.take (hashPayload : List RunFlowEvent → String) (flowId : String) (pageSize : Nat)
    (reading : Reading ι) : ReadingTurn ι → Except Unit (Reading ι)
  | .coordinator turn =>
      (reading.system.act (Coordinator.step hashPayload) turn).map fun system =>
        { reading with system := system }
  | .readPage =>
      .ok { reading with
        iterator := reading.iterator.readPage pageSize (reading.system.shared.flows flowId) }

/-! ### One page -/

structure FlowEventIterator.Follows (iterator : FlowEventIterator) (log : List RunFlowEvent) : Prop where
  yielded : iterator.yielded = log.take iterator.cursor
  inside : iterator.cursor ≤ log.length

theorem FlowEventIterator.Follows.mono {log later : List RunFlowEvent} (h : iterator.Follows log)
    (hgrows : log <+: later) : iterator.Follows later := by
  obtain ⟨more, rfl⟩ := hgrows
  refine ⟨?_, ?_⟩
  · rw [h.yielded, List.take_append_of_le_length h.inside]
  · rw [List.length_append]
    exact Nat.le_trans h.inside (Nat.le_add_right _ _)

theorem FlowTable.Sequenced.cursor (hsequenced : table.Sequenced) (cursor limit : Nat) :
    (readFlowEvents table cursor limit).foldl (fun _ event => event.sequence.getD 0) cursor
      = cursor + min limit (table.log.length - cursor) := by
  rw [hsequenced.page]
  induction limit with
  | zero => simp
  | succ limit ih =>
      cases hevent : table.log[cursor + limit]? with
      | none =>
          have hshort := List.getElem?_eq_none_iff.mp hevent
          have hsame : (table.log.drop cursor).take (limit + 1)
              = (table.log.drop cursor).take limit := by
            rw [List.take_eq_take_iff, List.length_drop]
            omega
          rw [hsame, ih]
          omega
      | some event =>
          have hlonger : (table.log.drop cursor).take (limit + 1)
              = (table.log.drop cursor).take limit ++ [event] := by
            rw [List.take_add_one, List.getElem?_drop, hevent]
            rfl
          have hlt := (List.getElem?_eq_some_iff.mp hevent).1
          rw [hlonger, List.foldl_append]
          simp only [List.foldl_cons, List.foldl_nil, hsequenced.event hevent, Option.getD_some]
          omega

theorem FlowEventIterator.Follows.readPage (h : iterator.Follows table.log)
    (hsequenced : table.Sequenced) (pageSize : Nat) :
    (iterator.readPage pageSize table).Follows table.log := by
  have hinside := h.inside
  unfold FlowEventIterator.readPage
  split
  · exact h
  · refine ⟨?_, ?_⟩
    · dsimp only
      rw [hsequenced.cursor, hsequenced.page, h.yielded, ← List.take_add, List.take_eq_take_iff]
      omega
    · dsimp only
      rw [hsequenced.cursor]
      omega

theorem FlowEventIterator.Follows.returned_iff (h : iterator.Follows table.log)
    (hsequenced : table.Sequenced) (hopen : iterator.returned = false) :
    (iterator.readPage pageSize table).returned = true
      ↔ table.log.length < iterator.cursor + pageSize := by
  have hinside := h.inside
  unfold FlowEventIterator.readPage
  rw [hopen, if_neg Bool.false_ne_true, decide_eq_true_eq, hsequenced.page, List.length_take,
    List.length_drop]
  omega

theorem FlowEventIterator.Follows.whole (h : iterator.Follows table.log)
    (hsequenced : table.Sequenced) (hopen : iterator.returned = false)
    (hreturned : (iterator.readPage pageSize table).returned = true) :
    (iterator.readPage pageSize table).yielded = table.log := by
  rw [h.returned_iff hsequenced hopen] at hreturned
  rw [FlowEventIterator.readPage, hopen, if_neg Bool.false_ne_true]
  dsimp only
  rw [hsequenced.page, h.yielded, ← List.take_add]
  exact List.take_of_length_le (Nat.le_of_lt hreturned)

theorem FlowEventIterator.Follows.iterate (h : iterator.Follows table.log)
    (hsequenced : table.Sequenced) (hopen : iterator.returned = false) {reads : Nat}
    (hreads : table.log.length < iterator.yielded.length + reads * pageSize) :
    ((FlowEventIterator.readPage pageSize table)^[reads] iterator).returned = true
      ∧ ((FlowEventIterator.readPage pageSize table)^[reads] iterator).yielded = table.log := by
  have hcursor : ∀ {iterator : FlowEventIterator}, iterator.Follows table.log →
      iterator.yielded.length = iterator.cursor := fun h => by
    rw [h.yielded, List.length_take, Nat.min_eq_left h.inside]
  induction reads generalizing iterator with
  | zero =>
      rw [hcursor h] at hreads
      have := h.inside
      omega
  | succ reads ih =>
      rw [Function.iterate_succ_apply]
      cases hreturned : (iterator.readPage pageSize table).returned with
      | true =>
          have hstays : (FlowEventIterator.readPage pageSize table)^[reads]
              (iterator.readPage pageSize table) = iterator.readPage pageSize table := by
            apply Function.iterate_fixed
            rw [FlowEventIterator.readPage, hreturned, if_pos rfl]
          rw [hstays]
          exact ⟨hreturned, h.whole hsequenced hopen hreturned⟩
      | false =>
          have hnext := h.readPage hsequenced pageSize
          refine ih hnext hreturned ?_
          have hfull := mt (h.returned_iff hsequenced hopen).mpr (by rw [hreturned]; exact Bool.false_ne_true)
          have hmoved : (iterator.readPage pageSize table).cursor = iterator.cursor + pageSize := by
            rw [FlowEventIterator.readPage, hopen, if_neg Bool.false_ne_true]
            dsimp only
            rw [hsequenced.cursor]
            omega
          rw [hcursor hnext, hmoved]
          rw [hcursor h, Nat.succ_mul] at hreads
          omega

/-! ### Runs -/

theorem follows_of_run {turns : List (ReadingTurn ι)} {reading : Reading ι}
    (hrun : replay (Reading.take hashPayload flowId pageSize) ⟨initialSystem ι, {}⟩ turns = .ok reading) :
    (reading.system.shared.flows flowId).Consistent
      ∧ reading.iterator.Follows (reading.system.shared.log flowId) := by
  suffices hinvariant : (∃ before, replay (Processes.act (Coordinator.step hashPayload)) (initialSystem ι)
      before = .ok reading.system) ∧ reading.iterator.Follows (reading.system.shared.log flowId) by
    obtain ⟨⟨before, hbefore⟩, hfollows⟩ := hinvariant
    exact ⟨(sound_of_run hbefore).1 flowId, hfollows⟩
  refine replay_induction (motive := fun _ reading => (∃ before,
    replay (Processes.act (Coordinator.step hashPayload)) (initialSystem ι) before = .ok reading.system)
      ∧ reading.iterator.Follows (reading.system.shared.log flowId)) ⟨⟨[], rfl⟩, rfl, Nat.zero_le _⟩ ?_ hrun
  rintro _ current turn next - ⟨⟨before, hbefore⟩, hfollows⟩ hturn
  cases turn with
  | coordinator turn =>
      obtain ⟨system, hact, rfl⟩ := exceptMap_eq_ok.mp hturn
      refine ⟨⟨before ++ [turn], replay_concat_ok.mpr ⟨_, hbefore, hact⟩⟩, ?_⟩
      exact hfollows.mono (extends_of_step hact (sound_of_run hbefore) flowId)
  | readPage =>
      obtain rfl := Except.ok.inj hturn
      exact ⟨⟨before, hbefore⟩,
        hfollows.readPage ((sound_of_run hbefore).1 flowId).sequenced pageSize⟩

/-- A reader that takes its pages while any coordinators write has yielded a beginning of the log, each
event once and in order. The read that makes it return has yielded the log as it stands, and when the
coordinators rest, it returns after as many reads as the rest of the log has pages. -/
theorem iterateFlowEvents_yields {turns : List (ReadingTurn ι)} {reading : Reading ι}
    (hrun : replay (Reading.take hashPayload flowId pageSize) ⟨initialSystem ι, {}⟩ turns = .ok reading) :
    reading.iterator.yielded <+: reading.system.shared.log flowId
      ∧ (reading.iterator.returned = false →
        ((reading.iterator.readPage pageSize (reading.system.shared.flows flowId)).returned = true →
            (reading.iterator.readPage pageSize (reading.system.shared.flows flowId)).yielded
              = reading.system.shared.log flowId)
          ∧ ∀ reads, (reading.system.shared.log flowId).length
              < reading.iterator.yielded.length + reads * pageSize →
            ∃ final, replay (Reading.take hashPayload flowId pageSize) reading
                (List.replicate reads .readPage) = .ok final
              ∧ final.iterator.returned = true
              ∧ final.iterator.yielded = reading.system.shared.log flowId) := by
  obtain ⟨hconsistent, hfollows⟩ := follows_of_run hrun
  refine ⟨?_, fun hopen => ⟨hfollows.whole hconsistent.sequenced hopen, fun reads hreads => ?_⟩⟩
  · rw [hfollows.yielded]
    exact List.take_prefix _ _
  · obtain ⟨hreturned, hyielded⟩ := hfollows.iterate hconsistent.sequenced hopen hreads
    refine ⟨⟨reading.system, _⟩, ?_, hreturned, hyielded⟩
    clear hreads hreturned hyielded hopen hfollows hrun
    induction reads generalizing reading with
    | zero => rfl
    | succ reads ih => exact replay_cons_ok.mpr ⟨_, rfl, ih hconsistent⟩

theorem iterateFlowEvents_yields_proposed : ∃ reading : Reading Bool,
    reading.iterator.yielded.length = 1
      ∧ reading.iterator.yielded <+: reading.system.shared.log "f" := by
  obtain ⟨reading, hrun, hlength⟩ : ∃ reading : Reading Bool,
      replay (Reading.take (fun _ => "") "f" 1) ⟨initialSystem Bool, {}⟩
          (proposedTurns.map .coordinator ++ [.readPage]) = .ok reading
        ∧ reading.iterator.yielded.length = 1 := ⟨_, rfl, rfl⟩
  exact ⟨reading, hlength, (iterateFlowEvents_yields hrun).1⟩

end Deckent.RunFlow
