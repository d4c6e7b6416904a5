import Mathlib.Algebra.Order.BigOperators.Group.List
import Deckent.Model.ExecutionWriteScopePolicy
import Deckent.Proof.AuditTexts

/-!
# The exact write policy

A list of paths compiles when it is within the limits, each path is portable and unprotected, and no two
different paths share a portable key. The policy then depends on the members of the list alone. Its files are
sorted by the comparator the binary search uses, so it allows exactly what was authored. A durable policy is
accepted when the policy compiled from its files has the same canonical text, and that text determines every
field.
-/

namespace Deckent.ExecutionWriteScope

open JsValue ExecutionTopology

def pathBytes (paths : List String) : Nat := (paths.map String.utf8ByteSize).sum

structure Compiles (runtime : EffectRuntime) (paths : List String) : Prop where
  count : paths.length ≤ maxEntries
  bytes : pathBytes paths ≤ maxTotalPathBytes
  portable : ∀ path ∈ paths, portableEffectPathFailure runtime path = none
  unprotected : ∀ path ∈ paths, isExecutionEffectProtectedPath runtime path = false
  distinct : ∀ p ∈ paths, ∀ q ∈ paths, portableKey runtime p = portableKey runtime q → p = q

variable {runtime : EffectRuntime} {path rawPath : String} {paths done rest : List String}
  {compilation : PolicyCompilation} {policy : ExecutionEffectWritePolicy}

/-! ### Single paths -/

theorem totalPathBytesOver_eq_none {total : Nat} (htotal : total ≤ maxTotalPathBytes) :
    totalPathBytesOver total paths = none ↔ total + pathBytes paths ≤ maxTotalPathBytes := by
  induction paths generalizing total with
  | nil => simpa [totalPathBytesOver, pathBytes] using htotal
  | cons path rest ih =>
      have hsum : pathBytes (path :: rest) = path.utf8ByteSize + pathBytes rest := rfl
      rw [totalPathBytesOver, hsum]
      by_cases hover : total + path.utf8ByteSize > maxTotalPathBytes
      · rw [if_pos hover]
        exact iff_of_false (by simp) (by omega)
      · rw [if_neg hover, ih (not_lt.mp hover), Nat.add_assoc]

theorem normalizeExactEffectPath_eq_some {normalized : PortableEffectPath} :
    normalizeExactEffectPath runtime path = some normalized
      ↔ portableEffectPathFailure runtime path = none ∧ normalized = ⟨path, portableKey runtime path⟩ := by
  unfold normalizeExactEffectPath parseExecutionEffectPortablePath
  cases portableEffectPathFailure runtime path with
  | none => simp [eq_comm]
  | some failure => simp

theorem normalizeExactEffectPath_of_portable (hportable : portableEffectPathFailure runtime path = none) :
    normalizeExactEffectPath runtime path = some ⟨path, portableKey runtime path⟩ :=
  normalizeExactEffectPath_eq_some.mpr ⟨hportable, rfl⟩

/-! ### Compiling -/

structure Fits (runtime : EffectRuntime) (compilation : PolicyCompilation) (path : String) : Prop where
  portable : portableEffectPathFailure runtime path = none
  unprotected : isExecutionEffectProtectedPath runtime path = false
  free : ∀ previous, compilation.byPortableKey.get? (portableKey runtime path) = some previous →
    previous = path

theorem compilePath_of_fits (h : Fits runtime compilation path) :
    compilePath runtime compilation path
      = { compilation with
          byPortableKey := compilation.byPortableKey.set (portableKey runtime path) path
          normalizedPaths := compilation.normalizedPaths ++ [path] } := by
  have hfilter : (compilation.byPortableKey.get? (portableKey runtime path)).filter (· ≠ path) = none := by
    rw [Option.filter_eq_none_iff]
    intro previous hprevious
    simpa using h.free previous hprevious
  rw [compilePath, normalizeExactEffectPath_of_portable h.portable]
  dsimp only
  rw [h.unprotected, if_neg Bool.false_ne_true, hfilter]

theorem holds_compilePath_of_not_fits (h : ¬ Fits runtime compilation path) :
    (compilePath runtime compilation path).holds ≠ [] := by
  unfold compilePath
  split
  · simp [PolicyCompilation.hold]
  · next normalized hnormalized =>
      obtain ⟨hportable, rfl⟩ := normalizeExactEffectPath_eq_some.mp hnormalized
      dsimp only
      split
      · simp [PolicyCompilation.hold]
      · next hunprotected =>
          split
          · simp [PolicyCompilation.hold]
          · next hfilter =>
              refine absurd ⟨hportable, by simpa using hunprotected, fun previous hprevious => ?_⟩ h
              have hkept := Option.filter_eq_none_iff.mp hfilter previous hprevious
              simpa using hkept

theorem holds_compilePath_ne_nil (h : compilation.holds ≠ []) :
    (compilePath runtime compilation path).holds ≠ [] := by
  by_cases hfits : Fits runtime compilation path
  · rw [compilePath_of_fits hfits]
    exact h
  · exact holds_compilePath_of_not_fits hfits

theorem holds_foldl_ne_nil (h : compilation.holds ≠ []) :
    (paths.foldl (compilePath runtime) compilation).holds ≠ [] := by
  induction paths generalizing compilation with
  | nil => exact h
  | cons path rest ih => exact ih (holds_compilePath_ne_nil h)

structure Compiled (runtime : EffectRuntime) (done : List String) (compilation : PolicyCompilation) : Prop where
  holds : compilation.holds = []
  paths : compilation.normalizedPaths = done
  keys : ∀ key path, compilation.byPortableKey.get? key = some path
    ↔ path ∈ done ∧ portableKey runtime path = key

theorem Compiled.fits_iff (h : Compiled runtime done compilation) :
    Fits runtime compilation path
      ↔ portableEffectPathFailure runtime path = none ∧ isExecutionEffectProtectedPath runtime path = false
        ∧ ∀ p ∈ done, portableKey runtime p = portableKey runtime path → p = path := by
  constructor
  · intro hfits
    exact ⟨hfits.portable, hfits.unprotected, fun p hp hkey => hfits.free p ((h.keys _ p).mpr ⟨hp, hkey⟩)⟩
  · rintro ⟨hportable, hunprotected, hfree⟩
    refine ⟨hportable, hunprotected, fun previous hprevious => ?_⟩
    obtain ⟨hmem, hkey⟩ := (h.keys _ previous).mp hprevious
    exact hfree previous hmem hkey

theorem Compiled.concat (h : Compiled runtime done compilation) (hfits : Fits runtime compilation path) :
    Compiled runtime (done ++ [path]) (compilePath runtime compilation path) := by
  rw [compilePath_of_fits hfits]
  refine ⟨h.holds, by rw [h.paths], fun key other => ?_⟩
  rw [OrderedMap.get?_set, List.mem_append, List.mem_singleton]
  by_cases hkey : key = portableKey runtime path
  · rw [if_pos hkey, Option.some.injEq, hkey]
    constructor
    · rintro rfl
      exact ⟨.inr rfl, rfl⟩
    · rintro ⟨hmem | hmem, hsame⟩
      · exact (hfits.free other ((h.keys _ other).mpr ⟨hmem, hsame⟩)).symm
      · exact hmem.symm
  · rw [if_neg hkey, h.keys]
    constructor
    · rintro ⟨hmem, hsame⟩
      exact ⟨.inl hmem, hsame⟩
    · rintro ⟨hmem | rfl, hsame⟩
      · exact ⟨hmem, hsame⟩
      · exact absurd hsame.symm hkey

theorem Compiled.foldl (h : Compiled runtime done compilation)
    (hdone : ∀ p ∈ done, ∀ q ∈ done, portableKey runtime p = portableKey runtime q → p = q) :
    (rest.foldl (compilePath runtime) compilation).holds = []
      ↔ (∀ path ∈ rest, portableEffectPathFailure runtime path = none
          ∧ isExecutionEffectProtectedPath runtime path = false)
        ∧ ∀ p ∈ done ++ rest, ∀ q ∈ done ++ rest, portableKey runtime p = portableKey runtime q → p = q := by
  induction rest generalizing done compilation with
  | nil => simpa [h.holds] using hdone
  | cons path rest ih =>
      have happend : done ++ path :: rest = (done ++ [path]) ++ rest := by simp
      rw [List.foldl_cons, happend]
      by_cases hfits : Fits runtime compilation path
      · obtain ⟨hportable, hunprotected, hfree⟩ := h.fits_iff.mp hfits
        have hdone' : ∀ p ∈ done ++ [path], ∀ q ∈ done ++ [path],
            portableKey runtime p = portableKey runtime q → p = q := by
          intro p hp q hq hkey
          simp only [List.mem_append, List.mem_singleton] at hp hq
          rcases hp with hp | rfl <;> rcases hq with hq | rfl
          · exact hdone p hp q hq hkey
          · exact hfree p hp hkey
          · exact (hfree q hq hkey.symm).symm
          · rfl
        rw [ih (h.concat hfits) hdone', List.forall_mem_cons, and_assoc]
        exact (and_iff_right ⟨hportable, hunprotected⟩).symm
      · refine iff_of_false (holds_foldl_ne_nil (holds_compilePath_of_not_fits hfits)) ?_
        rintro ⟨hall, hdistinct⟩
        obtain ⟨hportable, hunprotected⟩ := hall path List.mem_cons_self
        exact hfits (h.fits_iff.mpr ⟨hportable, hunprotected, fun p hp hkey =>
          hdistinct p (by simp [hp]) path (by simp) hkey⟩)

theorem compiled_start : Compiled runtime [] ⟨[], .empty, []⟩ := ⟨rfl, rfl, by simp⟩

theorem normalizedPaths_foldl (h : Compiled runtime done compilation)
    (hholds : (rest.foldl (compilePath runtime) compilation).holds = []) :
    (rest.foldl (compilePath runtime) compilation).normalizedPaths = done ++ rest := by
  induction rest generalizing done compilation with
  | nil => simpa using h.paths
  | cons path rest ih =>
      rw [List.foldl_cons] at hholds
      by_cases hfits : Fits runtime compilation path
      · rw [List.foldl_cons, ih (h.concat hfits) hholds]
        simp
      · exact absurd hholds (holds_foldl_ne_nil (holds_compilePath_of_not_fits hfits))

theorem compileExecutionEffectWritePolicy_ok :
    compileExecutionEffectWritePolicy runtime paths = .ok policy
      ↔ Compiles runtime paths ∧ policy = policyOf runtime paths := by
  unfold compileExecutionEffectWritePolicy
  have hstart : Compiled runtime [] ⟨[], .empty, []⟩ := compiled_start
  have hfold : (paths.foldl (compilePath runtime) ⟨[], .empty, []⟩).holds = [] ↔ _ := hstart.foldl (by simp)
  by_cases hcount : paths.length > maxEntries
  · rw [if_pos hcount]
    refine iff_of_false (by simp) fun h => ?_
    exact absurd h.1.count (not_le.mpr hcount)
  · rw [if_neg hcount]
    cases hover : totalPathBytesOver 0 paths with
    | some total =>
        refine iff_of_false (by simp) fun h => ?_
        have hnone := (totalPathBytesOver_eq_none (Nat.zero_le _)).mpr (by rw [Nat.zero_add]; exact h.1.bytes)
        exact absurd (hover.symm.trans hnone) (by simp)
    | none =>
        have hbytes := (totalPathBytesOver_eq_none (Nat.zero_le _)).mp hover
        rw [Nat.zero_add] at hbytes
        dsimp only
        by_cases hholds : (paths.foldl (compilePath runtime) ⟨[], .empty, []⟩).holds = []
        · rw [if_neg (not_not_intro hholds), normalizedPaths_foldl compiled_start hholds]
          obtain ⟨hall, hdistinct⟩ := hfold.mp hholds
          have hcompiles : Compiles runtime paths :=
            ⟨not_lt.mp hcount, hbytes, fun p hp => (hall p hp).1, fun p hp => (hall p hp).2, hdistinct⟩
          constructor
          · rintro ⟨⟩
            exact ⟨hcompiles, rfl⟩
          · rintro ⟨-, rfl⟩
            rfl
        · rw [if_pos hholds]
          refine iff_of_false (by simp) fun h => hholds (hfold.mpr ?_)
          exact ⟨fun p hp => ⟨h.1.portable p hp, h.1.unprotected p hp⟩, h.1.distinct⟩

/-! ### The members of a list -/

theorem Compiles.of_subset {other : List String} (h : Compiles runtime paths) (hsubset : other ⊆ paths)
    (hcount : other.length ≤ maxEntries) (hbytes : pathBytes other ≤ maxTotalPathBytes) :
    Compiles runtime other where
  count := hcount
  bytes := hbytes
  portable path hpath := h.portable path (hsubset hpath)
  unprotected path hpath := h.unprotected path (hsubset hpath)
  distinct p hp q hq := h.distinct p (hsubset hp) q (hsubset hq)

theorem pathBytes_le_of_subperm {other : List String} (hsub : other.Subperm paths) :
    pathBytes other ≤ pathBytes paths := by
  obtain ⟨kept, hperm, hsublist⟩ := hsub
  rw [pathBytes, pathBytes, ← (hperm.map _).sum_eq]
  exact (hsublist.map String.utf8ByteSize).sum_le_sum fun _ _ => Nat.zero_le _

theorem mem_filesWrite_policyOf : path ∈ (policyOf runtime paths).filesWrite ↔ path ∈ paths := by
  rw [policyOf, mem_sortBy]
  exact OrderedSet.mem_ofList

theorem nodup_filesWrite_policyOf : (policyOf runtime paths).filesWrite.Nodup :=
  nodup_sortBy.mpr (OrderedSet.ofList paths).nodup

theorem policyOf_congr {other : List String} (hmembers : ∀ path, path ∈ other ↔ path ∈ paths) :
    policyOf runtime other = policyOf runtime paths := by
  have hperm : (OrderedSet.ofList other).members.Perm (OrderedSet.ofList paths).members := by
    rw [List.perm_ext_iff_of_nodup (OrderedSet.ofList other).nodup (OrderedSet.ofList paths).nodup]
    intro path
    exact OrderedSet.mem_ofList.trans ((hmembers path).trans OrderedSet.mem_ofList.symm)
  rw [policyOf, policyOf, sortBy_compareCodePoint_of_perm hperm]

theorem compile_of_members {other : List String} (h : compileExecutionEffectWritePolicy runtime paths = .ok policy)
    (hmembers : ∀ path, path ∈ other ↔ path ∈ paths) :
    compileExecutionEffectWritePolicy runtime other = .ok policy
      ↔ other.length ≤ maxEntries ∧ pathBytes other ≤ maxTotalPathBytes := by
  obtain ⟨hcompiles, rfl⟩ := compileExecutionEffectWritePolicy_ok.mp h
  rw [compileExecutionEffectWritePolicy_ok]
  constructor
  · rintro ⟨hother, -⟩
    exact ⟨hother.count, hother.bytes⟩
  · rintro ⟨hcount, hbytes⟩
    exact ⟨hcompiles.of_subset (fun path => (hmembers path).mp) hcount hbytes, (policyOf_congr hmembers).symm⟩

theorem compile_filesWrite (h : compileExecutionEffectWritePolicy runtime paths = .ok policy) :
    compileExecutionEffectWritePolicy runtime policy.filesWrite = .ok policy := by
  obtain ⟨hcompiles, rfl⟩ := compileExecutionEffectWritePolicy_ok.mp h
  have hsub : (policyOf runtime paths).filesWrite.Subperm paths :=
    nodup_filesWrite_policyOf.subperm fun path => mem_filesWrite_policyOf.mp
  exact (compile_of_members h fun path => mem_filesWrite_policyOf).mpr
    ⟨hsub.length_le.trans hcompiles.count, (pathBytes_le_of_subperm hsub).trans hcompiles.bytes⟩

/-! ### What a policy allows -/

theorem allowsPath_iff (h : compileExecutionEffectWritePolicy runtime paths = .ok policy) :
    executionEffectPolicyAllowsPath runtime policy path = true ↔ path ∈ paths := by
  obtain ⟨hcompiles, rfl⟩ := compileExecutionEffectWritePolicy_ok.mp h
  have hordered : (policyOf runtime paths).filesWrite.Pairwise fun a b => compareCodePoint a b ≤ 0 :=
    signed_compareCodePoint.consistent.pairwise_sortBy _
  have hsearch := binarySearch_iff (x := path) hordered fun _ _ => eq_of_compareCodePoint
  rw [mem_filesWrite_policyOf] at hsearch
  constructor
  · intro hallows
    unfold executionEffectPolicyAllowsPath at hallows
    split at hallows
    · exact absurd hallows Bool.false_ne_true
    · next normalized hnormalized =>
        obtain ⟨-, rfl⟩ := normalizeExactEffectPath_eq_some.mp hnormalized
        dsimp only at hallows
        split at hallows
        · exact absurd hallows Bool.false_ne_true
        · exact hsearch.mp hallows
  · intro hpath
    rw [executionEffectPolicyAllowsPath, normalizeExactEffectPath_of_portable (hcompiles.portable path hpath)]
    dsimp only
    rw [hcompiles.unprotected path hpath, if_neg Bool.false_ne_true]
    exact hsearch.mpr hpath

def LiesIn (tree path : String) : Prop := path = tree ∨ ∃ below, path = tree ++ "/" ++ below

/-- Normalising and upper-casing leave the separator where it is. -/
structure KeepsSeparators (runtime : EffectRuntime) : Prop where
  nfkc : ∀ left right, runtime.nfkc (left ++ "/" ++ right) = runtime.nfkc left ++ "/" ++ runtime.nfkc right
  toUpperCase : ∀ left right,
    runtime.toUpperCase (left ++ "/" ++ right) = runtime.toUpperCase left ++ "/" ++ runtime.toUpperCase right

theorem KeepsSeparators.portableKey (h : KeepsSeparators runtime) (left right : String) :
    portableKey runtime (left ++ "/" ++ right) = portableKey runtime left ++ "/" ++ portableKey runtime right := by
  rw [ExecutionWriteScope.portableKey, h.nfkc, h.toUpperCase]
  rfl

theorem LiesIn.portableKey {tree : String} (h : LiesIn tree path) (hkeeps : KeepsSeparators runtime) :
    LiesIn (portableKey runtime tree) (portableKey runtime path) := by
  obtain rfl | ⟨below, rfl⟩ := h
  · exact .inl rfl
  · exact .inr ⟨_, hkeeps.portableKey ..⟩

theorem protected_of_liesIn {tree : String} (hportable : portableEffectPathFailure runtime path = none)
    (htree : tree ∈ executionEffectProtectedTrees)
    (h : LiesIn (portableKey runtime tree) (portableKey runtime path)) :
    isExecutionEffectProtectedPath runtime path = true := by
  rw [isExecutionEffectProtectedPath, normalizeExactEffectPath_of_portable hportable]
  refine List.any_eq_true.mpr ⟨tree, htree, ?_⟩
  obtain heq | ⟨below, hbelow⟩ := h
  · simp [heq]
  · simp [hbelow, startsWith]

theorem Compiles.not_liesIn (h : Compiles runtime paths) (hkeeps : KeepsSeparators runtime) (hpath : path ∈ paths)
    {tree own spelling : String} (htree : tree ∈ executionEffectProtectedTrees)
    (hown : portableKey runtime own = portableKey runtime path)
    (hspelling : portableKey runtime spelling = portableKey runtime tree) : ¬ LiesIn spelling own := by
  intro hlies
  have hkeys := hlies.portableKey hkeeps
  rw [hown, hspelling] at hkeys
  have hprotected := protected_of_liesIn (h.portable path hpath) htree hkeys
  exact Bool.false_ne_true ((h.unprotected path hpath).symm.trans hprotected)

/-! ### Durable policies -/

theorem isStored_texts (texts : List String) : (JsValue.array (texts.map .string)).IsStored := by
  rw [isStored_array, List.forall_mem_map]
  exact fun _ _ => rfl

theorem isStored_toValue (policy : ExecutionEffectWritePolicy) : policy.toValue.IsStored := by
  refine isStored_object.mpr ?_
  simp only [policyBody, List.cons_append, List.nil_append, List.forall_mem_cons]
  exact ⟨rfl, rfl, rfl, isStored_texts _, isStored_texts _, rfl, List.forall_mem_nil _⟩

theorem mapM_text? (texts : List String) : (texts.map JsValue.string).mapM text? = some texts := by
  induction texts with
  | nil => rfl
  | cons text rest ih => rw [List.map_cons, List.mapM_cons, ih]; rfl

theorem exactStringArray_texts (hcount : paths.length ≤ maxEntries) (hbytes : pathBytes paths ≤ maxTotalPathBytes) :
    exactStringArray (.array (paths.map .string)) = some paths := by
  have hnone : totalPathBytesOver 0 paths = none :=
    (totalPathBytesOver_eq_none (Nat.zero_le _)).mpr (by rwa [Nat.zero_add])
  rw [exactStringArray, List.length_map, if_neg (not_lt.mpr hcount), mapM_text?]
  dsimp only
  rw [hnone]
  rfl

theorem parse_toValue (h : compileExecutionEffectWritePolicy runtime paths = .ok policy) :
    parseExecutionEffectWritePolicy runtime policy.toValue = some policy := by
  have hagain := compile_filesWrite h
  have hcompiles := (compileExecutionEffectWritePolicy_ok.mp hagain).1
  have hfiles := exactStringArray_texts hcompiles.count hcompiles.bytes
  have htrees : exactStringArray (.array (executionEffectProtectedTrees.map .string))
      = some executionEffectProtectedTrees := by
    exact exactStringArray_texts (by decide) (by decide)
  have hrecord : exactPolicyRecord policy.toValue policyKeys
      = some (policyBody policy.readOnly policy.filesWrite ++ [("digest", .string policy.digest)]) := by
    rw [ExecutionEffectWritePolicy.toValue, exactPolicyRecord]
    exact if_pos rfl
  have hmember : member (policyBody policy.readOnly policy.filesWrite ++ [("digest", .string policy.digest)])
      "filesWrite" = .array (policy.filesWrite.map .string) := rfl
  have hmember' : member (policyBody policy.readOnly policy.filesWrite ++ [("digest", .string policy.digest)])
      "protectedTrees" = .array (executionEffectProtectedTrees.map .string) := rfl
  rw [parseExecutionEffectWritePolicy, hrecord]
  dsimp only
  rw [hmember, hmember', hfiles, htrees]
  dsimp only
  rw [hagain]
  dsimp only
  have hchecks : (isNumber (.number (.finite 1)) 1 && (JsValue.string "exact-files-write").isText "exact-files-write"
      && isBoolean (.bool policy.readOnly)
      && Audit.canonicalJson runtime.numberText (.array (executionEffectProtectedTrees.map .string))
        = Audit.canonicalJson runtime.numberText (.array (executionEffectProtectedTrees.map .string))
      && (JsValue.string policy.digest).text?.isSome) = true := by
    simp [isNumber, isText, isBoolean, text?]
  exact (if_pos hchecks).trans (if_pos rfl)

theorem ordered_of_parse (hwrites : Audit.WritesNumbers runtime.numberText) {value : JsValue}
    (hstored : value.IsStored) (h : parseExecutionEffectWritePolicy runtime value = some policy) :
    compileExecutionEffectWritePolicy runtime policy.filesWrite = .ok policy
      ∧ value.ordered = policy.toValue.ordered := by
  unfold parseExecutionEffectWritePolicy at h
  split at h
  · cases h
  · next record hrecord =>
      have hvalue : value = .object record := by
        unfold exactPolicyRecord at hrecord
        split at hrecord
        · split at hrecord
          · exact congrArg JsValue.object (Option.some.inj hrecord)
          · cases hrecord
        · cases hrecord
      split at h
      · dsimp only at h
        split at h
        · split at h
          · cases h
          · next compiled hcompiled =>
              split at h
              · next htext =>
                  obtain rfl := Option.some.inj h
                  subst hvalue
                  exact ⟨compile_filesWrite hcompiled,
                    Audit.ordered_eq_of_canonicalJson hwrites hstored (isStored_toValue _) htext.symm⟩
              · cases h
        · cases h
      · cases h

/-! ### The whole contract -/

/-- A policy authorises exactly the paths it was compiled from. -/
structure AuthorisesExactly (runtime : EffectRuntime) (paths : List String)
    (policy : ExecutionEffectWritePolicy) : Prop where
  authored : ∀ path, executionEffectPolicyAllowsPath runtime policy path = true ↔ path ∈ paths
  unprotected : ∀ path, executionEffectPolicyAllowsPath runtime policy path = true →
    ∀ tree ∈ executionEffectProtectedTrees, ∀ own spelling,
      portableKey runtime own = portableKey runtime path →
      portableKey runtime spelling = portableKey runtime tree → ¬ LiesIn spelling own
  distinct : ∀ p q, executionEffectPolicyAllowsPath runtime policy p = true →
    executionEffectPolicyAllowsPath runtime policy q = true →
    portableKey runtime p = portableKey runtime q → p = q
  permuted : ∀ other : List String, other.Perm paths →
    compileExecutionEffectWritePolicy runtime other = .ok policy
  repeated : ∀ other : List String, (∀ path, path ∈ other ↔ path ∈ paths) →
    (compileExecutionEffectWritePolicy runtime other = .ok policy
      ↔ other.length ≤ maxEntries ∧ pathBytes other ≤ maxTotalPathBytes)
  reparsed : policy.toValue.persisted.bind (parseExecutionEffectWritePolicy runtime) = some policy

/-- A compiled policy authorises exactly what was authored, whatever the order of its paths and however often
one is named within the limits, and a stored value is read as a policy only when it is a compiled one. -/
theorem executionEffectWritePolicy_authorises_exactly (hkeeps : KeepsSeparators runtime)
    (hwrites : Audit.WritesNumbers runtime.numberText) :
    (∀ paths policy, compileExecutionEffectWritePolicy runtime paths = .ok policy →
      AuthorisesExactly runtime paths policy) ∧
    ∀ value : JsValue, value.IsStored → ∀ policy, parseExecutionEffectWritePolicy runtime value = some policy →
      compileExecutionEffectWritePolicy runtime policy.filesWrite = .ok policy
        ∧ value.ordered = policy.toValue.ordered := by
  refine ⟨fun paths policy h => ?_, fun value hstored policy h => ordered_of_parse hwrites hstored h⟩
  obtain ⟨hcompiles, hpolicy⟩ := compileExecutionEffectWritePolicy_ok.mp h
  constructor
  · exact fun path => allowsPath_iff h
  · intro path hallows tree htree own spelling hown hspelling
    exact hcompiles.not_liesIn hkeeps ((allowsPath_iff h).mp hallows) htree hown hspelling
  · intro p q hp hq hkey
    exact hcompiles.distinct p ((allowsPath_iff h).mp hp) q ((allowsPath_iff h).mp hq) hkey
  · intro other hperm
    have hbytes : pathBytes other = pathBytes paths := (hperm.map _).sum_eq
    exact (compile_of_members h fun path => hperm.mem_iff).mpr
      ⟨hperm.length_eq ▸ hcompiles.count, hbytes ▸ hcompiles.bytes⟩
  · exact fun other hmembers => compile_of_members h hmembers
  · rw [isStored_toValue policy]
    exact parse_toValue h

/-! ### A sample policy -/

/-- Upper-casing of ASCII, texts that are normalised as they are, and SHA-256. -/
def asciiRuntime : EffectRuntime where
  nfc := id
  nfkc := id
  toUpperCase text := String.ofList (text.toList.map Char.toUpper)
  sha256Hex := sha256Hex
  numberText value := if value = 1 then "1" else String.ofList (Audit.unaryText value)

theorem asciiRuntime_keepsSeparators : KeepsSeparators asciiRuntime where
  nfkc _ _ := rfl
  toUpperCase left right := by
    rw [← String.toList_inj]
    simp [asciiRuntime]

theorem asciiRuntime_writesNumbers : Audit.WritesNumbers asciiRuntime.numberText :=
  Audit.writesNumbers_unary rfl rfl

def samplePaths : List String := ["src/a.ts", "README.md"]

theorem compile_samplePaths :
    compileExecutionEffectWritePolicy asciiRuntime samplePaths = .ok (policyOf asciiRuntime samplePaths) := by
  refine compileExecutionEffectWritePolicy_ok.mpr ⟨⟨by decide, by decide, ?_, ?_, ?_⟩, rfl⟩
  · decide +kernel
  · decide +kernel
  · decide +kernel

theorem executionEffectWritePolicy_authorises_exactly_samplePaths :
    compileExecutionEffectWritePolicy asciiRuntime samplePaths = .ok (policyOf asciiRuntime samplePaths) ∧
      AuthorisesExactly asciiRuntime samplePaths (policyOf asciiRuntime samplePaths) ∧
      parseExecutionEffectWritePolicy asciiRuntime (policyOf asciiRuntime samplePaths).toValue
        = some (policyOf asciiRuntime samplePaths) ∧
      compileExecutionEffectWritePolicy asciiRuntime (policyOf asciiRuntime samplePaths).filesWrite
        = .ok (policyOf asciiRuntime samplePaths) := by
  have hexact := executionEffectWritePolicy_authorises_exactly asciiRuntime_keepsSeparators
    asciiRuntime_writesNumbers
  have hparse := parse_toValue compile_samplePaths
  exact ⟨compile_samplePaths, hexact.1 _ _ compile_samplePaths, hparse,
    (hexact.2 _ (isStored_toValue _) _ hparse).1⟩

/-! ### At the limit -/

theorem compiles_replicate {count : Nat} (hcount : count ≤ maxEntries) :
    Compiles asciiRuntime (List.replicate count "a") where
  count := by rwa [List.length_replicate]
  bytes := by
    rw [pathBytes, List.map_replicate, List.sum_replicate]
    exact (Nat.mul_le_mul_right 1 hcount).trans (by decide)
  portable path hpath := by
    rw [List.eq_of_mem_replicate hpath]
    decide +kernel
  unprotected path hpath := by
    rw [List.eq_of_mem_replicate hpath]
    decide +kernel
  distinct p hp q hq _ := by rw [List.eq_of_mem_replicate hp, List.eq_of_mem_replicate hq]

/-- A list with as many entries as there may be is refused once an entry is repeated. -/
theorem refused_repeatedEntry :
    compileExecutionEffectWritePolicy asciiRuntime (List.replicate maxEntries "a")
        = .ok (policyOf asciiRuntime (List.replicate maxEntries "a")) ∧
      compileExecutionEffectWritePolicy asciiRuntime ("a" :: List.replicate maxEntries "a")
        = .error [⟨.writePolicyEntryLimit, "100001"⟩] := by
  refine ⟨compileExecutionEffectWritePolicy_ok.mpr ⟨compiles_replicate le_rfl, rfl⟩, ?_⟩
  have hlength : ("a" :: List.replicate maxEntries "a").length = maxEntries + 1 := by
    rw [List.length_cons, List.length_replicate]
  rw [compileExecutionEffectWritePolicy, hlength, if_pos (Nat.lt_succ_self _)]
  decide

end Deckent.ExecutionWriteScope
