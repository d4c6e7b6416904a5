import Deckent.Lib.JsonText

/-!
# Plain data within budgets

A value is walked while its nodes, its keys and the bytes of its texts are charged to one budget, with bounds on the
depth, on the members of one array or object and on one text. What a value costs is the sum of what its parts cost,
so a value whose parts fit is accepted as long as the sum does.
-/

namespace Deckent

structure PlainLimits where
  maxDepth : Nat
  maxNodes : Nat
  maxKeys : Nat
  maxObjectKeys : Nat
  maxArrayLength : Option Nat
  maxTextBytes : Nat
  maxTotalBytes : Nat

structure PlainBudget where
  nodes : Nat
  keys : Nat
  stringBytes : Nat

namespace PlainBudget

def zero : PlainBudget := ⟨0, 0, 0⟩

def add (left right : PlainBudget) : PlainBudget :=
  ⟨left.nodes + right.nodes, left.keys + right.keys, left.stringBytes + right.stringBytes⟩

theorem zero_add (budget : PlainBudget) : zero.add budget = budget := by
  simp [zero, add]

theorem add_assoc (a b c : PlainBudget) : (a.add b).add c = a.add (b.add c) := by
  simp [add, Nat.add_assoc]

structure Within (limits : PlainLimits) (budget : PlainBudget) : Prop where
  nodes : budget.nodes ≤ limits.maxNodes
  keys : budget.keys ≤ limits.maxKeys
  stringBytes : budget.stringBytes ≤ limits.maxTotalBytes

theorem Within.left {limits : PlainLimits} {left right : PlainBudget} (hwithin : (left.add right).Within limits) :
    left.Within limits :=
  ⟨(Nat.le_add_right _ _).trans hwithin.nodes, (Nat.le_add_right _ _).trans hwithin.keys,
    (Nat.le_add_right _ _).trans hwithin.stringBytes⟩

end PlainBudget

namespace JsonTree

/-- A text in ASCII. -/
def ascii (value : String) : JsonTree := .text (UnitText.ofAscii value)

/-- An object with keys in ASCII. -/
def record (members : List (String × JsonTree)) : JsonTree :=
  .object (members.map fun entry => (UnitText.ofAscii entry.1, entry.2))

/-! ### The walk -/

section Walk

variable (limits : PlainLimits)

def consumeNode (depth : Nat) (budget : PlainBudget) : Option PlainBudget :=
  if limits.maxNodes < budget.nodes + 1 ∨ limits.maxDepth < depth then none
  else some (budget.add ⟨1, 0, 0⟩)

def consumeText (text : UnitText) (budget : PlainBudget) : Option PlainBudget :=
  if limits.maxTextBytes < text.utf8.length ∨ limits.maxTotalBytes < budget.stringBytes + text.utf8.length then none
  else some (budget.add ⟨0, 0, text.utf8.length⟩)

def consumeKeys (count : Nat) (budget : PlainBudget) : Option PlainBudget :=
  if limits.maxObjectKeys < count ∨ limits.maxKeys < budget.keys + count then none
  else some (budget.add ⟨0, count, 0⟩)

mutual

def consume : JsonTree → Nat → PlainBudget → Option PlainBudget
  | .foreign, _, _ => none
  | .null, depth, budget => consumeNode limits depth budget
  | .bool _, depth, budget => consumeNode limits depth budget
  | .number _, depth, budget => consumeNode limits depth budget
  | .text value, depth, budget => (consumeNode limits depth budget).bind (consumeText limits value)
  | .array items, depth, budget =>
      if limits.maxArrayLength.all (· < items.length) then none
      else (consumeNode limits depth budget).bind (consumeItems items (depth + 1))
  | .object members, depth, budget =>
      ((consumeNode limits depth budget).bind (consumeKeys limits members.length)).bind
        (consumeMembers members (depth + 1))

def consumeItems : List JsonTree → Nat → PlainBudget → Option PlainBudget
  | [], _, budget => some budget
  | item :: rest, depth, budget => (consume item depth budget).bind (consumeItems rest depth)

def consumeMembers : List (UnitText × JsonTree) → Nat → PlainBudget → Option PlainBudget
  | [], _, budget => some budget
  | (key, value) :: rest, depth, budget =>
      ((consumeText limits key budget).bind (consume value depth)).bind (consumeMembers rest depth)

end

def isPlain (value : JsonTree) : Bool := (value.consume limits 0 .zero).isSome

end Walk

/-! ### What a value costs -/

mutual

def cost : JsonTree → PlainBudget
  | .foreign => ⟨1, 0, 0⟩
  | .null => ⟨1, 0, 0⟩
  | .bool _ => ⟨1, 0, 0⟩
  | .number _ => ⟨1, 0, 0⟩
  | .text value => (⟨1, 0, 0⟩ : PlainBudget).add ⟨0, 0, value.utf8.length⟩
  | .array items => (⟨1, 0, 0⟩ : PlainBudget).add (costItems items)
  | .object members => ((⟨1, 0, 0⟩ : PlainBudget).add ⟨0, members.length, 0⟩).add (costMembers members)

def costItems : List JsonTree → PlainBudget
  | [] => .zero
  | item :: rest => item.cost.add (costItems rest)

def costMembers : List (UnitText × JsonTree) → PlainBudget
  | [] => .zero
  | (key, value) :: rest => ((⟨0, 0, key.utf8.length⟩ : PlainBudget).add value.cost).add (costMembers rest)

end

section Fits

variable (limits : PlainLimits)

mutual

def Fits : JsonTree → Nat → Prop
  | .foreign, _ => False
  | .null, depth => depth ≤ limits.maxDepth
  | .bool _, depth => depth ≤ limits.maxDepth
  | .number _, depth => depth ≤ limits.maxDepth
  | .text value, depth => depth ≤ limits.maxDepth ∧ value.utf8.length ≤ limits.maxTextBytes
  | .array items, depth => depth ≤ limits.maxDepth ∧ limits.maxArrayLength.any (items.length ≤ ·) = true
      ∧ FitsItems items (depth + 1)
  | .object members, depth => depth ≤ limits.maxDepth ∧ members.length ≤ limits.maxObjectKeys
      ∧ FitsMembers members (depth + 1)

def FitsItems : List JsonTree → Nat → Prop
  | [], _ => True
  | item :: rest, depth => Fits item depth ∧ FitsItems rest depth

def FitsMembers : List (UnitText × JsonTree) → Nat → Prop
  | [], _ => True
  | (key, value) :: rest, depth => (key.utf8.length ≤ limits.maxTextBytes ∧ Fits value depth) ∧ FitsMembers rest depth

end

variable {limits}

theorem consumeNode_eq {depth : Nat} {budget : PlainBudget} (hdepth : depth ≤ limits.maxDepth)
    (hwithin : (budget.add ⟨1, 0, 0⟩).Within limits) :
    consumeNode limits depth budget = some (budget.add ⟨1, 0, 0⟩) :=
  if_neg (not_or.mpr ⟨Nat.not_lt.mpr hwithin.nodes, Nat.not_lt.mpr hdepth⟩)

theorem consumeText_eq {text : UnitText} {budget : PlainBudget} (htext : text.utf8.length ≤ limits.maxTextBytes)
    (hwithin : (budget.add ⟨0, 0, text.utf8.length⟩).Within limits) :
    consumeText limits text budget = some (budget.add ⟨0, 0, text.utf8.length⟩) :=
  if_neg (not_or.mpr ⟨Nat.not_lt.mpr htext, Nat.not_lt.mpr hwithin.stringBytes⟩)

theorem consumeKeys_eq {count : Nat} {budget : PlainBudget} (hcount : count ≤ limits.maxObjectKeys)
    (hwithin : (budget.add ⟨0, count, 0⟩).Within limits) :
    consumeKeys limits count budget = some (budget.add ⟨0, count, 0⟩) :=
  if_neg (not_or.mpr ⟨Nat.not_lt.mpr hcount, Nat.not_lt.mpr hwithin.keys⟩)

mutual

/-- A value that fits is charged what it costs. -/
theorem consume_eq (value : JsonTree) {depth : Nat} {budget : PlainBudget} (hfits : Fits limits value depth)
    (hwithin : (budget.add value.cost).Within limits) :
    value.consume limits depth budget = some (budget.add value.cost) := by
  match value with
  | .foreign => exact hfits.elim
  | .null => exact consumeNode_eq hfits hwithin
  | .bool _ => exact consumeNode_eq hfits hwithin
  | .number _ => exact consumeNode_eq hfits hwithin
  | .text value =>
      have hnode : ((budget.add ⟨1, 0, 0⟩).add ⟨0, 0, value.utf8.length⟩).Within limits := by
        rwa [PlainBudget.add_assoc, ← cost]
      rw [consume, consumeNode_eq hfits.1 hnode.left, Option.bind_some, consumeText_eq hfits.2 hnode, cost,
        PlainBudget.add_assoc]
  | .array items =>
      obtain ⟨hdepth, hlength, hitems⟩ := hfits
      rw [cost, ← PlainBudget.add_assoc] at hwithin
      have hshort : limits.maxArrayLength.all (· < items.length) = false := by
        cases hmax : limits.maxArrayLength with
        | none => rw [hmax] at hlength; cases hlength
        | some bound =>
            rw [hmax] at hlength
            simpa using hlength
      rw [consume, hshort, if_neg Bool.false_ne_true, consumeNode_eq hdepth hwithin.left, Option.bind_some,
        consumeItems_eq items hitems hwithin, cost, PlainBudget.add_assoc]
  | .object members =>
      obtain ⟨hdepth, hlength, hmembers⟩ := hfits
      rw [cost, ← PlainBudget.add_assoc, ← PlainBudget.add_assoc] at hwithin ⊢
      rw [consume, consumeNode_eq hdepth hwithin.left.left, Option.bind_some,
        consumeKeys_eq hlength hwithin.left, Option.bind_some, consumeMembers_eq members hmembers hwithin]

theorem consumeItems_eq (items : List JsonTree) {depth : Nat} {budget : PlainBudget}
    (hfits : FitsItems limits items depth) (hwithin : (budget.add (costItems items)).Within limits) :
    consumeItems limits items depth budget = some (budget.add (costItems items)) := by
  match items with
  | [] => rfl
  | item :: rest =>
      rw [costItems, ← PlainBudget.add_assoc] at hwithin ⊢
      rw [consumeItems, consume_eq item hfits.1 hwithin.left, Option.bind_some, consumeItems_eq rest hfits.2 hwithin]

theorem consumeMembers_eq (members : List (UnitText × JsonTree)) {depth : Nat} {budget : PlainBudget}
    (hfits : FitsMembers limits members depth) (hwithin : (budget.add (costMembers members)).Within limits) :
    consumeMembers limits members depth budget = some (budget.add (costMembers members)) := by
  match members with
  | [] => rfl
  | (key, value) :: rest =>
      obtain ⟨⟨hkey, hvalue⟩, hrest⟩ := hfits
      rw [costMembers, ← PlainBudget.add_assoc, ← PlainBudget.add_assoc] at hwithin ⊢
      rw [consumeMembers, consumeText_eq hkey hwithin.left.left, Option.bind_some,
        consume_eq value hvalue hwithin.left, Option.bind_some, consumeMembers_eq rest hrest hwithin]

end

/-! ### What a value costs at most -/

/-- A value fits at a depth and costs no more than a budget. -/
structure Takes (limits : PlainLimits) (value : JsonTree) (depth nodes keys bytes : Nat) : Prop where
  fits : Fits limits value depth
  nodes : value.cost.nodes ≤ nodes
  keys : value.cost.keys ≤ keys
  bytes : value.cost.stringBytes ≤ bytes

variable {value : JsonTree} {depth nodes keys bytes nodes' keys' bytes' : Nat}

theorem takes_number (value : Int) (hdepth : depth ≤ limits.maxDepth) : Takes limits (.number value) depth 1 0 0 :=
  ⟨hdepth, le_rfl, le_rfl, le_rfl⟩

theorem takes_text {value : UnitText} (hbytes : value.utf8.length ≤ bytes) (hmax : bytes ≤ limits.maxTextBytes)
    (hdepth : depth ≤ limits.maxDepth) : Takes limits (.text value) depth 1 0 bytes :=
  ⟨⟨hdepth, hbytes.trans hmax⟩, le_rfl, le_rfl, by simpa [cost, PlainBudget.add] using hbytes⟩

theorem length_ofAscii_le (value : String) : (UnitText.ofAscii value).utf8.length ≤ 3 * value.length := by
  refine (UnitText.length_utf8_le _).trans (Nat.mul_le_mul_left 3 (le_of_eq ?_))
  rw [UnitText.ofAscii, List.length_map, List.length_map, String.length_toList]

theorem takes_ascii (value : String) (hmax : 3 * value.length ≤ limits.maxTextBytes)
    (hdepth : depth ≤ limits.maxDepth) : Takes limits (.ascii value) depth 1 0 (3 * value.length) :=
  takes_text (length_ofAscii_le value) hmax hdepth

theorem takes_record_nil (hdepth : depth ≤ limits.maxDepth) : Takes limits (record []) depth 1 0 0 :=
  ⟨⟨hdepth, Nat.zero_le _, trivial⟩, le_rfl, le_rfl, le_rfl⟩

theorem takes_record_cons {key : String} {value : JsonTree} {rest : List (String × JsonTree)}
    (hroom : (Nat.ble (3 * key.length) limits.maxTextBytes && Nat.blt rest.length limits.maxObjectKeys) = true)
    (hvalue : Takes limits value (depth + 1) nodes keys bytes)
    (hrest : Takes limits (record rest) depth nodes' keys' bytes') :
    Takes limits (record ((key, value) :: rest)) depth (nodes + nodes') (keys + keys' + 1)
      (bytes + bytes' + 3 * key.length) := by
  obtain ⟨hkey, hcount⟩ := Bool.and_eq_true_iff.mp hroom
  obtain ⟨hdepth, -, hmembers⟩ := hrest.fits
  have hlength := length_ofAscii_le key
  have hmore := hrest.nodes
  have hmoreKeys := hrest.keys
  have hmoreBytes := hrest.bytes
  simp only [record, cost, PlainBudget.add, List.length_map] at hmore hmoreKeys hmoreBytes
  have hone := hvalue.nodes
  have honeKeys := hvalue.keys
  have honeBytes := hvalue.bytes
  refine ⟨⟨hdepth, by simpa using Nat.le_of_ble_eq_true hcount,
    ⟨hlength.trans (Nat.le_of_ble_eq_true hkey), hvalue.fits⟩, hmembers⟩, ?_, ?_, ?_⟩ <;>
    simp only [record, List.map_cons, cost, costMembers, PlainBudget.add, List.length_cons, List.length_map] <;> omega

theorem takes_array {items : List JsonTree} (hitems : ∀ item ∈ items, Takes limits item (depth + 1) nodes keys bytes)
    (hlength : limits.maxArrayLength.any (items.length ≤ ·) = true) (hdepth : depth ≤ limits.maxDepth) :
    Takes limits (.array items) depth (nodes * items.length + 1) (keys * items.length) (bytes * items.length) := by
  have hsum (items : List JsonTree) (hitems : ∀ item ∈ items, Takes limits item (depth + 1) nodes keys bytes) :
      FitsItems limits items (depth + 1) ∧ (costItems items).nodes ≤ nodes * items.length
        ∧ (costItems items).keys ≤ keys * items.length ∧ (costItems items).stringBytes ≤ bytes * items.length := by
    induction items with
    | nil => exact ⟨trivial, le_rfl, le_rfl, le_rfl⟩
    | cons item rest ih =>
        obtain ⟨hitem, hrest⟩ := List.forall_mem_cons.mp hitems
        obtain ⟨hfits, hnodes, hkeys, hbytes⟩ := ih hrest
        have hone := hitem.nodes
        have honeKeys := hitem.keys
        have honeBytes := hitem.bytes
        refine ⟨⟨hitem.fits, hfits⟩, ?_, ?_, ?_⟩ <;>
          simp only [costItems, PlainBudget.add, List.length_cons, Nat.mul_add, Nat.mul_one] <;> omega
  obtain ⟨hfits, hnodes, hkeys, hbytes⟩ := hsum items hitems
  refine ⟨⟨hdepth, hlength, hfits⟩, ?_, ?_, ?_⟩ <;> simp only [cost, PlainBudget.add] <;> omega

theorem Takes.mono (htakes : Takes limits value depth nodes keys bytes) (hnodes : nodes ≤ nodes') (hkeys : keys ≤ keys')
    (hbytes : bytes ≤ bytes') : Takes limits value depth nodes' keys' bytes' :=
  ⟨htakes.fits, htakes.nodes.trans hnodes, htakes.keys.trans hkeys, htakes.bytes.trans hbytes⟩

theorem Takes.isPlain (htakes : Takes limits value 0 limits.maxNodes limits.maxKeys limits.maxTotalBytes) :
    value.isPlain limits = true := by
  have hwithin : value.cost.Within limits := ⟨htakes.nodes, htakes.keys, htakes.bytes⟩
  unfold JsonTree.isPlain
  rw [consume_eq value htakes.fits (by rwa [PlainBudget.zero_add])]
  rfl

end Fits

end JsonTree

end Deckent
