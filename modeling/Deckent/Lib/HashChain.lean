import Mathlib.Data.List.Forall2
import Mathlib.Data.List.Infix

/-!
# Chains of codes

An entry links the code before it to a code of its own. When a code shows what it links, entries that make
a chain from the root and whose codes all occur in one chain are a beginning of that chain.
-/

namespace Deckent

variable {Code Entry : Type*}

/-- The entries lead from one code to another. -/
inductive CodeChain (link : Code → Entry → Code → Prop) : Code → List Entry → Code → Prop where
  | nil (code : Code) : CodeChain link code [] code
  | cons {first next last : Code} {entry : Entry} {rest : List Entry} (hlink : link first entry next)
      (hrest : CodeChain link next rest last) : CodeChain link first (entry :: rest) last

namespace CodeChain

variable {link link' : Code → Entry → Code → Prop} {first middle last : Code} {before after : List Entry}

theorem append (hbefore : CodeChain link first before middle) (hafter : CodeChain link middle after last) :
    CodeChain link first (before ++ after) last := by
  induction hbefore with
  | nil => exact hafter
  | cons hlink _ ih => exact .cons hlink (ih hafter)

theorem concat (hbefore : CodeChain link first before middle) {entry : Entry}
    (hlink : link middle entry last) : CodeChain link first (before ++ [entry]) last :=
  hbefore.append (.cons hlink (.nil last))

theorem of_append (hchain : CodeChain link first (before ++ after) last) :
    ∃ middle, CodeChain link first before middle ∧ CodeChain link middle after last := by
  induction before generalizing first with
  | nil => exact ⟨first, .nil first, hchain⟩
  | cons entry before ih =>
      cases hchain with
      | cons hlink hrest =>
          obtain ⟨middle, hbefore, hafter⟩ := ih hrest
          exact ⟨middle, .cons hlink hbefore, hafter⟩

theorem imp {entries : List Entry} (hchain : CodeChain link first entries last)
    (himp : ∀ entry ∈ entries, ∀ code next, link code entry next → link' code entry next) :
    CodeChain link' first entries last := by
  induction hchain with
  | nil code => exact .nil code
  | cons hlink _ ih =>
      obtain ⟨hhead, hrest⟩ := List.forall_mem_cons.mp himp
      exact .cons (hhead _ _ hlink) (ih hrest)

theorem with_invariant {P : Code → Prop} (hstep : ∀ {code entry next}, link code entry next → P next)
    (hfirst : P first) {entries : List Entry} (hchain : CodeChain link first entries last) :
    CodeChain (fun code entry next => link code entry next ∧ P code) first entries last := by
  induction hchain with
  | nil code => exact .nil code
  | cons hlink _ ih => exact .cons ⟨hlink, hfirst⟩ (ih (hstep hlink))

theorem exists_link {entries : List Entry} (hchain : CodeChain link first entries last) :
    ∀ entry ∈ entries, ∃ code next, link code entry next := by
  induction hchain with
  | nil => exact List.forall_mem_nil _
  | cons hlink _ ih => exact List.forall_mem_cons.mpr ⟨⟨_, _, hlink⟩, ih⟩

end CodeChain

structure BindingLink (link : Code → Entry → Code → Prop) (root : Code) (same : Entry → Entry → Prop) :
    Prop where
  back : ∀ {code code' entry entry' next}, link code entry next → link code' entry' next →
    code = code' ∧ same entry entry'
  own : ∀ {code code' entry next next'}, link code entry next → link code' entry next' → next = next'
  start : ∀ {code entry}, ¬link code entry root

namespace BindingLink

variable {link : Code → Entry → Code → Prop} {root : Code} {same : Entry → Entry → Prop}

/-- A code occurs at one place of a chain. -/
theorem eq_of_initial (hbinding : BindingLink link root same) {chain left right : List Entry} {code : Code}
    (hleft : CodeChain link root left code) (hright : CodeChain link root right code)
    (hleftChain : left <+: chain) (hrightChain : right <+: chain) : left = right := by
  suffices hlength : left.length = right.length by
    rw [List.prefix_iff_eq_take.mp hleftChain, List.prefix_iff_eq_take.mp hrightChain, hlength]
  clear hleftChain hrightChain
  induction left using List.reverseRecOn generalizing right code with
  | nil =>
      cases hleft
      cases right using List.reverseRecOn with
      | nil => rfl
      | append_singleton right entry _ =>
          obtain ⟨middle, -, hentry⟩ := hright.of_append
          cases hentry with
          | cons hlink hnil =>
              cases hnil
              exact absurd hlink hbinding.start
  | append_singleton left entry ih =>
      obtain ⟨middle, hleft, hentry⟩ := hleft.of_append
      cases hentry with
      | cons hlink hnil =>
          cases hnil
          cases right using List.reverseRecOn with
          | nil =>
              cases hright
              exact absurd hlink hbinding.start
          | append_singleton right other _ =>
              obtain ⟨middle', hright, hother⟩ := hright.of_append
              cases hother with
              | cons hlink' hnil =>
                  cases hnil
                  obtain ⟨rfl, -⟩ := hbinding.back hlink hlink'
                  rw [List.length_append, List.length_append, ih hleft hright, List.length_singleton,
                    List.length_singleton]

/-- Entries that make a chain and whose codes occur in another chain are a beginning of it. -/
theorem forall₂_initial (hbinding : BindingLink link root same) {chain entries : List Entry}
    {last code : Code} (hchain : CodeChain link root chain last) (hentries : CodeChain link root entries code)
    (hoccurs : ∀ entry ∈ entries, ∀ before after, link before entry after →
      ∃ other ∈ chain, ∃ before, link before other after) :
    ∃ initial, initial <+: chain ∧ CodeChain link root initial code ∧ List.Forall₂ same entries initial := by
  induction entries using List.reverseRecOn generalizing code with
  | nil =>
      cases hentries
      exact ⟨[], List.nil_prefix, .nil root, .nil⟩
  | append_singleton entries entry ih =>
      obtain ⟨middle, hentries, hentry⟩ := hentries.of_append
      cases hentry with
      | cons hlink hnil =>
          cases hnil
          obtain ⟨initial, hinitially, hinitial, hsame⟩ :=
            ih hentries fun other hother => hoccurs other (List.mem_append_left _ hother)
          obtain ⟨other, hother, start, hlink'⟩ :=
            hoccurs entry (List.mem_append_right _ (List.mem_singleton_self entry)) _ _ hlink
          obtain ⟨before, after, rfl⟩ := List.mem_iff_append.mp hother
          obtain ⟨middle', hbefore, hafter⟩ := hchain.of_append
          cases hafter with
          | cons hlink'' hafter =>
              obtain rfl := hbinding.own hlink' hlink''
              obtain ⟨rfl, hentry⟩ := hbinding.back hlink hlink''
              obtain rfl := hbinding.eq_of_initial hinitial hbefore hinitially (List.prefix_append ..)
              have hinitially' : initial ++ [other] <+: initial ++ other :: after :=
                (List.prefix_append_right_inj initial).mpr ⟨after, rfl⟩
              exact ⟨initial ++ [other], hinitially', hinitial.concat hlink'',
                List.rel_append hsame (.cons hentry .nil)⟩

end BindingLink

end Deckent
