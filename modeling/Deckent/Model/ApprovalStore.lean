import Deckent.Lib.OrderedMap
import Deckent.Model.ApprovalTimeout

/-!
# The approval store

The store keeps the files of each approval in one directory: the request, the decision, the receipt of a
timeout, and the tombstone of an approval that has been retired. A name is published once and stays until
it is unlinked. Each instance keeps the snapshot of its last scan.

A file is absent, is no JSON, is JSON outside its contract, or holds a record. The directory is listed in
the order of its entries. A sweep and a pruning pass through several directories; a crash leaves one of them.
-/

namespace Deckent.ApprovalLifecycle

/-! ### The directory -/

inductive StoredFile (α : Type) where
  | absent
  | unreadable
  | invalid
  | valid (record : α)
  deriving DecidableEq

def StoredFile.record? {α : Type} : StoredFile α → Option α
  | valid record => some record
  | _ => none

structure ApprovalTombstone where
  id : String
  retiredAt : Int
  decision : ApprovalDecision
  deriving DecidableEq

structure ApprovalFiles where
  request : StoredFile ApprovalRequest := .absent
  decision : StoredFile ApprovalDecision := .absent
  timeout : StoredFile ApprovalTimeoutReceipt := .absent
  tombstone : StoredFile ApprovalTombstone := .absent
  deriving DecidableEq

abbrev ApprovalDirectory := OrderedMap String ApprovalFiles

def ApprovalDirectory.files (dir : ApprovalDirectory) (id : String) : ApprovalFiles :=
  (dir.get? id).getD {}

def ApprovalDirectory.change (dir : ApprovalDirectory) (id : String) (f : ApprovalFiles → ApprovalFiles) :
    ApprovalDirectory :=
  dir.set id (f (dir.files id))

/-! ### The scan -/

inductive ApprovalStoreCategory where
  | pending
  | approved
  | denied
  | expired
  deriving DecidableEq

structure ApprovalStoreEntry where
  request : ApprovalRequest
  decision : Option ApprovalDecision
  lifecycle : Option ApprovalAppliedLifecycleView
  deriving DecidableEq

inductive QuarantineReason where
  | unreadableJson
  | invalidRequestContract
  | filenameIdMismatch
  deriving DecidableEq

structure ApprovalStoreSnapshot where
  pending : List ApprovalStoreEntry
  approved : List ApprovalStoreEntry
  denied : List ApprovalStoreEntry
  expired : List ApprovalStoreEntry
  quarantined : List (String × QuarantineReason)
  deriving DecidableEq

def emptySnapshot : ApprovalStoreSnapshot := ⟨[], [], [], [], []⟩

def ApprovalStoreSnapshot.push (snapshot : ApprovalStoreSnapshot) (entry : ApprovalStoreEntry) :
    ApprovalStoreCategory → ApprovalStoreSnapshot
  | .pending => { snapshot with pending := snapshot.pending ++ [entry] }
  | .approved => { snapshot with approved := snapshot.approved ++ [entry] }
  | .denied => { snapshot with denied := snapshot.denied ++ [entry] }
  | .expired => { snapshot with expired := snapshot.expired ++ [entry] }

def categorize (request : ApprovalRequest) (decision : Option ApprovalDecision) (nowMs : Int) :
    ApprovalStoreCategory :=
  match decision with
  | none => if request.expiresAt ≤ nowMs then .expired else .pending
  | some decision =>
      if decision.channel = "ttl-expire" then .expired
      else if decision.decision = .allow then .approved
      else .denied

def ApprovalFiles.isRetired (files : ApprovalFiles) (id : String) : Bool :=
  files.tombstone.record?.any fun tombstone =>
    tombstone.id = id && tombstone.decision.requestId = tombstone.id

def ApprovalFiles.decisionFor (files : ApprovalFiles) (id : String) : Option ApprovalDecision :=
  files.decision.record?.filter fun decision => decision.requestId = id

def entryCategory (entry : ApprovalStoreEntry) (nowMs : Int) : ApprovalStoreCategory :=
  match entry.decision, entry.lifecycle with
  | none, some applied => if applied.effectiveExpiresAt ≤ nowMs then .expired else .pending
  | decision, _ => categorize entry.request decision nowMs

section Store

variable (profileDigest : ApprovalLifecycleOrigin → ResolvedApprovalLifecycleProfile → String)
  (lifecycle : ResolvedApprovalLifecycleConfig)

def scanFile (nowMs : Int) (snapshot : ApprovalStoreSnapshot) (file : String × ApprovalFiles) :
    ApprovalStoreSnapshot :=
  match file.2.request with
  | .absent => snapshot
  | .unreadable => { snapshot with quarantined := snapshot.quarantined ++ [(file.1, .unreadableJson)] }
  | .invalid =>
      { snapshot with quarantined := snapshot.quarantined ++ [(file.1, .invalidRequestContract)] }
  | .valid request =>
      if request.id ≠ file.1 then
        { snapshot with quarantined := snapshot.quarantined ++ [(file.1, .filenameIdMismatch)] }
      else if file.2.isRetired file.1 then snapshot
      else
        let entry : ApprovalStoreEntry := {
          request := request
          decision := file.2.decisionFor file.1
          lifecycle := appliedLifecycleView profileDigest request lifecycle }
        snapshot.push entry (entryCategory entry nowMs)

def scanStoreDir (dir : ApprovalDirectory) (nowMs : Int) : ApprovalStoreSnapshot :=
  dir.entries.foldl (scanFile profileDigest lifecycle nowMs) emptySnapshot

/-! ### Creation -/

inductive ApprovalStoreErrorCode where
  | unknownId
  | alreadyTerminal
  | invalidDecision
  | categoryMismatch
  | retirementConflict
  | expired
  | lifecycleDisabled
  deriving DecidableEq

structure ApprovalStoreError where
  message : String
  code : Option ApprovalStoreErrorCode
  deriving DecidableEq

inductive CreateOutcome where
  | created (request : ApprovalRequest)
  | held
  | rejected (error : ApprovalStoreError)
  deriving DecidableEq

def createLifecycleRequest (dir : ApprovalDirectory) (request : ApprovalRequest) (privateFile : Bool) :
    ApprovalDirectory × CreateOutcome :=
  if !lifecycle.enabled then
    (dir, .rejected { message := "approval lifecycle is disabled; new governed pending records are blocked"
                      code := some .lifecycleDisabled })
  else if !isStoredRequest profileDigest request || request.lifecycle.isNone then
    (dir, .rejected { message := "invalid lifecycle request", code := some .invalidDecision })
  else if !privateFile then (dir, .held)
  else if (dir.files request.id).request ≠ .absent then
    (dir, .rejected { message := "request already exists: " ++ request.id
                      code := some .alreadyTerminal })
  else
    (dir.change request.id fun files => { files with request := .valid request }, .created request)

/-! ### Sweeps -/

structure Sweep where
  dir : ApprovalDirectory
  passed : List ApprovalDirectory
  swept : List String
  error : Option ApprovalStoreError

def Sweep.start (dir : ApprovalDirectory) : Sweep := { dir := dir, passed := [], swept := [], error := none }

def Sweep.write (sweep : Sweep) (id : String) (f : ApprovalFiles → ApprovalFiles) : Sweep :=
  { sweep with dir := sweep.dir.change id f, passed := sweep.passed ++ [sweep.dir] }

def Sweep.directories (sweep : Sweep) : List ApprovalDirectory := sweep.passed ++ [sweep.dir]

def Sweep.publishReceipt (sweep : Sweep) (id : String) (receipt : ApprovalTimeoutReceipt) : Sweep :=
  if (sweep.dir.files id).timeout = .absent then
    sweep.write id fun files => { files with timeout := .valid receipt }
  else sweep

def ApprovalFiles.timeoutReceipt (files : ApprovalFiles) (id : String) : Option ApprovalTimeoutReceipt :=
  files.timeout.record?.filter fun receipt => receipt.requestId = id

def sweepDecided (sweep : Sweep) (request : ApprovalRequest) (decision : ApprovalDecision) : Sweep :=
  if decision.channel ≠ "ttl-expire" then sweep
  else if ((sweep.dir.files request.id).timeoutReceipt request.id).isSome then sweep
  else
    match buildApprovalTimeoutSettlement profileDigest request decision.decidedAt lifecycle with
    | .error message => { sweep with error := some { message := message, code := none } }
    | .ok settled => sweep.publishReceipt request.id settled.receipt

def sweepOverdue (now : Int) (sweep : Sweep) (request : ApprovalRequest) : Sweep :=
  match buildApprovalTimeoutSettlement profileDigest request now lifecycle with
  | .error message => { sweep with error := some { message := message, code := none } }
  | .ok settled =>
      if (sweep.dir.files request.id).decision ≠ .absent then sweep
      else
        let published := sweep.write request.id fun files =>
          { files with decision := .valid settled.decision }
        if (published.dir.files request.id).tombstone ≠ .absent then
          published.write request.id fun files => { files with decision := .absent }
        else
          { published.publishReceipt request.id settled.receipt with
            swept := published.swept ++ [request.id] }

def sweepEntry (now : Int) (sweep : Sweep) (entry : ApprovalStoreEntry) : Sweep :=
  if sweep.error.isSome then sweep
  else
    match entry.decision with
    | some decision => sweepDecided profileDigest lifecycle sweep entry.request decision
    | none => sweepOverdue profileDigest lifecycle now sweep entry.request

def sweepExpired (dir : ApprovalDirectory) (now : Int) : Sweep :=
  (scanStoreDir profileDigest lifecycle dir now).expired.foldl (sweepEntry profileDigest lifecycle now)
    (Sweep.start dir)

/-! ### Transitions -/

structure ApprovalDecisionInput where
  decision : ApprovalAction
  decidedBy : String
  channel : String
  decidedAt : Int
  reason : String
  isExpiryClosure : Bool
  authorization : Option String

def ApprovalDecisionInput.forRequest (input : ApprovalDecisionInput) (id : String) : ApprovalDecision :=
  { requestId := id
    decision := input.decision
    decidedBy := input.decidedBy
    channel := input.channel
    decidedAt := input.decidedAt
    reason := input.reason
    isExpiryClosure := input.isExpiryClosure
    authorization := input.authorization }

inductive ApprovalStoreTerminalCategory where
  | approved
  | denied
  | expired
  deriving DecidableEq

def ApprovalStoreTerminalCategory.text : ApprovalStoreTerminalCategory → String
  | approved => "approved"
  | denied => "denied"
  | expired => "expired"

def ApprovalAction.text : ApprovalAction → String
  | allow => "allow"
  | deny => "deny"
  | defer => "defer"
  | escalate => "escalate"

def categoryMismatch (target : ApprovalStoreTerminalCategory) (decision : ApprovalDecision) : Option String :=
  if decision.channel = "ttl-expire" then
    if target ≠ .expired then
      some ("channel 'ttl-expire' always categorizes as 'expired', not '" ++ target.text ++ "'")
    else none
  else
    match target with
    | .expired =>
        some "transition to 'expired' requires channel 'ttl-expire' (approval-contract.ts channel semantics)"
    | .approved =>
        if decision.decision ≠ .allow then
          some ("transition to 'approved' requires decision 'allow', got '" ++ decision.decision.text ++ "'")
        else none
    | .denied =>
        if decision.decision = .allow then some "transition to 'denied' cannot use decision 'allow'" else none

def ApprovalStoreSnapshot.findIn (entries : List ApprovalStoreEntry) (id : String) :
    Option ApprovalStoreEntry :=
  entries.find? fun entry => entry.request.id = id

def ApprovalStoreSnapshot.findEntry (snapshot : ApprovalStoreSnapshot) (id : String) :
    Option (Bool × ApprovalStoreEntry) :=
  ((findIn snapshot.pending id).map (false, ·)).or
    (((findIn snapshot.approved id).map (false, ·)).or
      (((findIn snapshot.denied id).map (false, ·)).or
        ((findIn snapshot.expired id).map (true, ·))))

structure TransitionOutcome where
  directories : List ApprovalDirectory
  result : Except ApprovalStoreError ApprovalDecision

def transition (dir : ApprovalDirectory) (id : String) (target : ApprovalStoreTerminalCategory)
    (input : ApprovalDecisionInput) (now : Int) : TransitionOutcome :=
  let refuse := fun directories message code =>
    ({ directories, result := .error { message, code := some code } } : TransitionOutcome)
  match (scanStoreDir profileDigest lifecycle dir now).findEntry id with
  | none => refuse [dir] ("no request found for id: " ++ id) .unknownId
  | some (isExpired, entry) =>
      if entry.decision.isSome then refuse [dir] ("request already decided: " ++ id) .alreadyTerminal
      else if isExpired then
        let sweep := sweepExpired profileDigest lifecycle dir now
        match sweep.error with
        | some error => { directories := sweep.directories, result := .error error }
        | none => refuse sweep.directories ("request already expired: " ++ id) .expired
      else
        let decision := input.forRequest id
        if !isStoredDecision decision then refuse [dir] "invalid ApprovalDecision" .invalidDecision
        else
          match categoryMismatch target decision with
          | some message => refuse [dir] message .categoryMismatch
          | none =>
              if (dir.files id).decision ≠ .absent then
                refuse [dir] ("request already decided: " ++ id) .alreadyTerminal
              else
                let decided := dir.change id fun files => { files with decision := .valid decision }
                if (decided.files id).tombstone ≠ .absent then
                  refuse [dir, decided, decided.change id fun files => { files with decision := .absent }]
                    ("request retired before decision commit: " ++ id) .unknownId
                else { directories := [dir, decided], result := .ok decision }

end Store

/-! ### Pruning -/

structure Pruning where
  dir : ApprovalDirectory
  passed : List ApprovalDirectory
  pruned : List String
  error : Option ApprovalStoreError

def Pruning.write (pruning : Pruning) (id : String) (f : ApprovalFiles → ApprovalFiles) : Pruning :=
  { pruning with dir := pruning.dir.change id f, passed := pruning.passed ++ [pruning.dir] }

def Pruning.directories (pruning : Pruning) : List ApprovalDirectory := pruning.passed ++ [pruning.dir]

def ApprovalFiles.retiredWith (files : ApprovalFiles) (id : String) (decision : ApprovalDecision) : Bool :=
  files.tombstone.record?.any fun tombstone =>
    tombstone.id = id && tombstone.decision.requestId = tombstone.id && tombstone.decision = decision

def Pruning.remove (pruning : Pruning) (id : String) (unlinks : Bool × Bool) : Pruning :=
  let withoutRequest := if unlinks.1 then pruning.write id fun files => { files with request := .absent }
    else pruning
  let withoutDecision := if unlinks.2 then
      withoutRequest.write id fun files => { files with decision := .absent }
    else withoutRequest
  { withoutDecision with pruned := withoutDecision.pruned ++ [id] }

def pruneEntry (olderThan retiredAt : Int) (unlinks : String → Bool × Bool) (pruning : Pruning)
    (entry : ApprovalStoreEntry) : Pruning :=
  match pruning.error, entry.decision with
  | none, some decision =>
      let id := entry.request.id
      if olderThan ≤ decision.decidedAt then pruning
      else if (pruning.dir.files id).tombstone = .absent then
        (pruning.write id fun files =>
          { files with tombstone := .valid { id := id, retiredAt := retiredAt, decision := decision } }).remove
            id (unlinks id)
      else if (pruning.dir.files id).retiredWith id decision then pruning.remove id (unlinks id)
      else
        { pruning with
          error := some { message := "retirement tombstone conflict for id: " ++ id
                          code := some .retirementConflict } }
  | _, _ => pruning

def prune (dir : ApprovalDirectory) (snapshot : ApprovalStoreSnapshot) (olderThan retiredAt : Int)
    (unlinks : String → Bool × Bool) : Pruning :=
  (snapshot.approved ++ snapshot.denied ++ snapshot.expired).foldl
    (pruneEntry olderThan retiredAt unlinks) { dir := dir, passed := [], pruned := [], error := none }

end Deckent.ApprovalLifecycle
