import Deckent.Lib.Fallible
import Deckent.Model.CustodyJson
import Mathlib.Logic.Equiv.List

/-!
# Canonical bytes say one value

Nothing that is counted depends on where a member stands, so what is read back from the bytes of an accepted value
is accepted again. The bytes are the UTF-8 of a text without lone surrogates, the text is that of one value with
sorted keys, and the domain of a digest ends where its zero byte stands.
-/

namespace Deckent.Custody

variable {numbers : NumberText} {bounds : CanonicalJsonBounds} {bytes : List Nat}

/-- A JavaScript value, whose objects have no key twice. -/
abbrev JsValue := { value : JsonTree // value.Proper True }

/-! ### What is accepted -/

mutual

theorem plain_of_normalizeJson (value : JsonTree) (hproper : value.Proper True) {depth nodes counted : Nat}
    (haccepted : normalizeJson bounds value depth nodes = .ok counted) : value.Plain := by
  match value with
  | .foreign =>
      rw [normalizeJson] at haccepted
      obtain ⟨_, -, herror⟩ := bind_eq_ok.mp haccepted
      cases herror
  | .null => trivial
  | .bool _ => trivial
  | .number _ => trivial
  | .text _ => trivial
  | .array items =>
      rw [normalizeJson] at haccepted
      obtain ⟨_, -, hitems⟩ := bind_eq_ok.mp haccepted
      split at hitems
      · cases hitems
      · exact plain_of_normalizeItems items hproper hitems
  | .object members =>
      rw [normalizeJson] at haccepted
      obtain ⟨_, -, hmembers⟩ := bind_eq_ok.mp haccepted
      split at hmembers
      · cases hmembers
      · exact ⟨hproper.1, plain_of_normalizeMembers members hproper.2 hmembers⟩

theorem plain_of_normalizeItems (items : List JsonTree) (hproper : JsonTree.ProperItems True items)
    {depth nodes counted : Nat} (haccepted : normalizeItems bounds items depth nodes = .ok counted) :
    JsonTree.ProperItems False items := by
  match items with
  | [] => trivial
  | item :: rest =>
      rw [normalizeItems] at haccepted
      obtain ⟨_, hitem, hrest⟩ := bind_eq_ok.mp haccepted
      exact ⟨plain_of_normalizeJson item hproper.1 hitem, plain_of_normalizeItems rest hproper.2 hrest⟩

theorem plain_of_normalizeMembers (members : List (UnitText × JsonTree))
    (hproper : JsonTree.ProperMembers True members) {depth nodes counted : Nat}
    (haccepted : normalizeMembers bounds members depth nodes = .ok counted) :
    JsonTree.ProperMembers False members := by
  match members with
  | [] => trivial
  | (_, value) :: rest =>
      rw [normalizeMembers] at haccepted
      obtain ⟨_, -, hvalues⟩ := bind_eq_ok.mp haccepted
      obtain ⟨_, hvalue, hrest⟩ := bind_eq_ok.mp hvalues
      exact ⟨plain_of_normalizeJson value hproper.1 hvalue, plain_of_normalizeMembers rest hproper.2 hrest⟩

end

theorem canonical_eq_ok (value : JsValue)
    (haccepted : canonicalTaskAttemptCustodyJson numbers value.1 bounds = .ok bytes) :
    value.1.sorted.Plain ∧ bytes = (value.1.sorted.print numbers).utf8
      ∧ canonicalTaskAttemptCustodyJson numbers value.1.sorted bounds = .ok bytes := by
  have hagain : canonicalTaskAttemptCustodyJson numbers value.1.sorted bounds = .ok bytes := by
    unfold canonicalTaskAttemptCustodyJson at haccepted ⊢
    rwa [JsonTree.sorted_sorted]
  unfold canonicalTaskAttemptCustodyJson serializeCanonicalJson at haccepted
  obtain ⟨safeBounds, -, hrest⟩ := bind_eq_ok.mp haccepted
  obtain ⟨counted, hnormalized, hbytes⟩ := bind_eq_ok.mp hrest
  refine ⟨plain_of_normalizeJson _ (JsonTree.proper_sorted value.1 |>.mpr value.2) hnormalized, ?_, hagain⟩
  dsimp only at hbytes
  split at hbytes
  · cases hbytes
  · rw [JsonTree.sorted_sorted] at hbytes
    exact (Except.ok.inj hbytes).symm

theorem parseBytes_canonical (value : JsValue)
    (haccepted : canonicalTaskAttemptCustodyJson numbers value.1 bounds = .ok bytes) :
    parseBytes numbers bytes = some value.1.sorted := by
  obtain ⟨hplain, rfl, -⟩ := canonical_eq_ok value haccepted
  unfold parseBytes
  rw [UnitText.decodeUtf8_utf8 (JsonTree.wellFormed_print numbers _)]
  exact JsonTree.parse_print numbers hplain

theorem canonical_inj {left right : JsValue} {leftBounds rightBounds : CanonicalJsonBounds} {leftBytes rightBytes : List Nat}
    (hleft : canonicalTaskAttemptCustodyJson numbers left.1 leftBounds = .ok leftBytes)
    (hright : canonicalTaskAttemptCustodyJson numbers right.1 rightBounds = .ok rightBytes) :
    leftBytes = rightBytes ↔ left.1.SameUpToKeyOrder right.1 := by
  constructor
  · rintro rfl
    exact Option.some.inj ((parseBytes_canonical left hleft).symm.trans (parseBytes_canonical right hright))
  · intro hsame
    rw [(canonical_eq_ok left hleft).2.1, (canonical_eq_ok right hright).2.1, hsame]

/-! ### Digests -/

def domainText (domain : UnitText) : UnitText :=
  UnitText.ofAscii "deckent.task-attempt-custody." ++ domain ++ UnitText.ofAscii ".v2"

theorem mem_ofAscii {text : String}
    (htext : text.toList.all (fun c => decide (0 < c.toNat ∧ c.toNat < 0x80)) = true) :
    ∀ unit ∈ UnitText.ofAscii text, 0 < unit.val ∧ unit.val < 0x80 := by
  intro unit hunit
  obtain ⟨value, hvalue, rfl⟩ := List.mem_map.mp hunit
  obtain ⟨c, hc, rfl⟩ := List.mem_map.mp hvalue
  obtain ⟨hpos, hlt⟩ : 0 < c.toNat ∧ c.toNat < 0x80 := of_decide_eq_true (List.all_eq_true.mp htext c hc)
  rw [val_codeUnit (hlt.trans (by decide))]
  exact ⟨hpos, hlt⟩

theorem isDomainStart_eq_true {unit : CodeUnit} (hstart : isDomainStart unit = true) :
    0 < unit.val ∧ unit.val < 0x80 := by
  simp only [isDomainStart, Bool.or_eq_true, Bool.and_eq_true, decide_eq_true_eq] at hstart
  omega

theorem mem_domain {domain : UnitText} (hdomain : isDomain domain = true) :
    ∀ unit ∈ domain, 0 < unit.val ∧ unit.val < 0x80 := by
  cases domain with
  | nil => cases hdomain
  | cons first rest =>
      simp only [isDomain, Bool.and_eq_true, List.all_eq_true, Bool.or_eq_true, decide_eq_true_eq] at hdomain
      obtain ⟨⟨hfirst, hrest⟩, -⟩ := hdomain
      refine List.forall_mem_cons.mpr ⟨isDomainStart_eq_true hfirst, fun unit hunit => ?_⟩
      rcases hrest unit hunit with (hstart | hpoint) | hdash
      · exact isDomainStart_eq_true hstart
      · omega
      · omega

theorem mem_domainText {domain : UnitText} (hdomain : isDomain domain = true) :
    ∀ unit ∈ domainText domain, 0 < unit.val ∧ unit.val < 0x80 := by
  have hbefore : ∀ unit ∈ UnitText.ofAscii "deckent.task-attempt-custody.", 0 < unit.val ∧ unit.val < 0x80 :=
    mem_ofAscii (by decide +kernel)
  have hafter : ∀ unit ∈ UnitText.ofAscii ".v2", 0 < unit.val ∧ unit.val < 0x80 := mem_ofAscii (by decide +kernel)
  intro unit hunit
  rcases List.mem_append.mp hunit with hunit | hunit
  · exact (List.mem_append.mp hunit).elim (hbefore unit) (mem_domain hdomain unit)
  · exact hafter unit hunit

theorem hashed_inj {left right : UnitText} (hleft : isDomain left = true) (hright : isDomain right = true)
    {leftBytes rightBytes : List Nat}
    (hhashed : (domainText left).utf8 ++ 0 :: leftBytes = (domainText right).utf8 ++ 0 :: rightBytes) :
    left = right ∧ leftBytes = rightBytes := by
  have hnozero {domain : UnitText} (hdomain : isDomain domain = true) : 0 ∉ (domainText domain).utf8 := by
    rw [UnitText.utf8_ascii fun unit hunit => (mem_domainText hdomain unit hunit).2]
    intro hzero
    obtain ⟨unit, hunit, hval⟩ := List.mem_map.mp hzero
    exact absurd hval (mem_domainText hdomain unit hunit).1.ne'
  have hsplit {text bytes : List Nat} (htext : 0 ∉ text) :
      (text ++ 0 :: bytes).takeWhile (· != 0) = text ∧ (text ++ 0 :: bytes).dropWhile (· != 0) = 0 :: bytes := by
    have hall : ∀ byte ∈ text, (byte != 0) = true := fun byte hbyte =>
      bne_iff_ne.mpr fun hzero => htext (hzero ▸ hbyte)
    rw [List.takeWhile_append_of_pos hall, List.dropWhile_append_of_pos hall]
    exact ⟨List.append_nil text, rfl⟩
  have hdomains := congrArg (List.takeWhile (· != 0)) hhashed
  have hbytes := congrArg (List.dropWhile (· != 0)) hhashed
  rw [(hsplit (hnozero hleft)).1, (hsplit (hnozero hright)).1] at hdomains
  rw [(hsplit (hnozero hleft)).2, (hsplit (hnozero hright)).2] at hbytes
  rw [UnitText.utf8_ascii fun unit hunit => (mem_domainText hleft unit hunit).2,
    UnitText.utf8_ascii fun unit hunit => (mem_domainText hright unit hunit).2] at hdomains
  have htexts : domainText left = domainText right := List.map_injective_iff.mpr Fin.val_injective hdomains
  exact ⟨List.append_cancel_left (List.append_cancel_right htexts), (List.cons.inj hbytes).2⟩

theorem taskAttemptCustodyDigest_eq_ok {sha256 : List Nat → String} {domain : UnitText} {value : JsonTree}
    {digest : String} (hdigest : taskAttemptCustodyDigest numbers sha256 domain value bounds = .ok digest) :
    isDomain domain = true ∧ ∃ bytes, canonicalTaskAttemptCustodyJson numbers value bounds = .ok bytes
      ∧ digest = "sha256:" ++ sha256 ((domainText domain).utf8 ++ 0 :: bytes) := by
  unfold taskAttemptCustodyDigest at hdigest
  split at hdigest
  next hdomain =>
    cases hbytes : canonicalTaskAttemptCustodyJson numbers value bounds with
    | error code => rw [hbytes] at hdigest; cases hdigest
    | ok bytes =>
        rw [hbytes] at hdigest
        exact ⟨hdomain, bytes, rfl, (Except.ok.inj hdigest).symm⟩
  next => cases hdigest

theorem digest_inj {sha256 : List Nat → String} (hsha : Function.Injective sha256) {leftDomain rightDomain : UnitText}
    {left right : JsValue} {leftBounds rightBounds : CanonicalJsonBounds} {leftDigest rightDigest : String}
    (hleft : taskAttemptCustodyDigest numbers sha256 leftDomain left.1 leftBounds = .ok leftDigest)
    (hright : taskAttemptCustodyDigest numbers sha256 rightDomain right.1 rightBounds = .ok rightDigest) :
    leftDigest = rightDigest ↔ leftDomain = rightDomain ∧ left.1.SameUpToKeyOrder right.1 := by
  obtain ⟨hleftDomain, leftBytes, hleftBytes, rfl⟩ := taskAttemptCustodyDigest_eq_ok hleft
  obtain ⟨hrightDomain, rightBytes, hrightBytes, rfl⟩ := taskAttemptCustodyDigest_eq_ok hright
  constructor
  · intro hdigest
    obtain ⟨rfl, hbytes⟩ := hashed_inj hleftDomain hrightDomain (hsha (String.append_right_inj _ |>.mp hdigest))
    exact ⟨rfl, (canonical_inj hleftBytes hrightBytes).mp hbytes⟩
  · rintro ⟨rfl, hsame⟩
    rw [(canonical_inj hleftBytes hrightBytes).mpr hsame]

/-! ### The whole -/

def spelledBytes (bytes : List Nat) : String := String.ofList (Nat.toDigits 10 (Encodable.encode bytes))

theorem spelledBytes_injective : Function.Injective spelledBytes := by
  intro left right hspelled
  have hdigits := congrArg (Nat.ofDigitChars 10 · 0) (String.ofList_injective hspelled)
  rw [Nat.ofDigitChars_ten_toDigits, Nat.ofDigitChars_ten_toDigits] at hdigits
  exact Encodable.encode_injective hdigits

def sharedMembers : List (UnitText × JsonTree) :=
  [(UnitText.ofAscii "__proto__", .text [0xD800]), (UnitText.ofAscii "7", .array [.number (-12), .null])]

def sharedValue : JsValue :=
  ⟨.object sharedMembers, by decide +kernel, ⟨trivial, ⟨trivial, trivial, trivial⟩, trivial⟩⟩

def turnedValue : JsValue :=
  ⟨.object sharedMembers.reverse, by decide +kernel, ⟨⟨trivial, trivial, trivial⟩, trivial, trivial⟩⟩

end Deckent.Custody
