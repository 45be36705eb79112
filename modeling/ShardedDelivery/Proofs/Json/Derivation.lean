import ShardedDelivery.Proofs.Json.Written

/-! # Reading texts of the grammar

Whatever the grammar derives spells tokens that build it. So a text of the grammar is read as its
tree to the end of the text, and any value in it may be skipped. -/

namespace ShardedDelivery.Json

/-! ## Building phrases -/

/-- The tokens of these parts, of which there is at least one, with commas between them. -/
def Series {α : Type} (Part : List Token → α → Prop) (tokens : List Token) (xs : List α) : Prop :=
  ∃ tss, List.Forall₂ Part tss xs ∧ tokens = [.comma].intercalate tss ∧ xs ≠ []

namespace Series

variable {α : Type} {Part : List Token → α → Prop} {first more : List Token} {x : α} {xs : List α}

theorem one (h : Part first x) : Series Part first [x] :=
  ⟨[first], .cons h .nil, (List.intercalate_singleton ..).symm, by simp⟩

theorem cons (h : Part first x) (hmore : Series Part more xs) :
    Series Part (first ++ .comma :: more) (x :: xs) := by
  obtain ⟨tss, hxs, rfl, hne⟩ := hmore
  refine ⟨first :: tss, .cons h hxs, ?_, by simp⟩
  cases hxs with
  | nil => contradiction
  | cons _ _ =>
      rw [List.intercalate_cons_cons, List.append_assoc]
      rfl

end Series

/-- The tokens build this phrase. -/
def Phrase.BuiltBy : Phrase → List Token → Prop
  | .value t, tokens | .element t, tokens => Builds tokens t
  | .items ts, tokens => Series Builds tokens ts
  | .member key t, tokens => BuildsMember tokens (key, t)
  | .members ms, tokens => Series BuildsMember tokens ms

namespace Derives

/-- Whatever the grammar derives spells tokens that build it. -/
theorem spells {cs : List Char} {p : Phrase} (h : Derives cs p) :
    ∃ ts, Spells cs ts ∧ p.BuiltBy ts := by
  induction h with
  | null => exact ⟨[.null], fun _ _ => rfl, .null⟩
  | true => exact ⟨[.bool .true], fun _ _ => rfl, .bool .true⟩
  | false => exact ⟨[.bool .false], fun _ _ => rfl, .bool .false⟩
  | number h => exact ⟨_, Mode.spells_number h, .number _⟩
  | text h => exact ⟨_, (Mode.closes_text h).spells, .text _⟩
  | emptyArray h =>
      have hcloses := (Closes.blank h).spells.bracketed .openArray .closeArray .closeArray
      exact ⟨_, hcloses.spells, .array .nil⟩
  | array _ ih =>
      obtain ⟨_, hspells, tss, hts, rfl, -⟩ := ih
      have hcloses := hspells.bracketed .openArray .closeArray .closeArray
      exact ⟨_, hcloses.spells, .array hts⟩
  | emptyObject h =>
      have hcloses := (Closes.blank h).spells.bracketed .openObject .closeObject .closeObject
      exact ⟨_, hcloses.spells, .object .nil⟩
  | object _ ih =>
      obtain ⟨_, hspells, tss, hms, rfl, -⟩ := ih
      have hcloses := hspells.bracketed .openObject .closeObject .closeObject
      exact ⟨_, hcloses.spells, .object hms⟩
  | element hbefore _ hafter ih =>
      obtain ⟨ts, hspells, hbuilds⟩ := ih
      exact ⟨ts, hspells.padded hbefore hafter, hbuilds⟩
  | item _ ih =>
      obtain ⟨ts, hspells, hbuilds⟩ := ih
      exact ⟨ts, hspells, .one hbuilds⟩
  | moreItems _ _ ih ihmore =>
      obtain ⟨ts, hspells, hbuilds⟩ := ih
      obtain ⟨ts', hspells', hbuilds'⟩ := ihmore
      have hcomma := hspells.append_closes Delimited.comma Closes.comma
      refine ⟨_, ?_, .cons hbuilds hbuilds'⟩
      simpa using hcomma.append_spells hspells'
  | keyed hbefore hkey hafter _ ih =>
      obtain ⟨ts, hspells, hbuilds⟩ := ih
      have hname := (Mode.closes_text hkey).spells.padded hbefore hafter
      refine ⟨_, ?_, ts, rfl, hbuilds⟩
      simpa using (hname.append_closes Delimited.colon Closes.colon).append_spells hspells
  | member _ ih =>
      obtain ⟨ts, hspells, hbuilds⟩ := ih
      exact ⟨ts, hspells, .one hbuilds⟩
  | moreMembers _ _ ih ihmore =>
      obtain ⟨ts, hspells, hbuilds⟩ := ih
      obtain ⟨ts', hspells', hbuilds'⟩ := ihmore
      have hcomma := hspells.append_closes Delimited.comma Closes.comma
      refine ⟨_, ?_, .cons hbuilds hbuilds'⟩
      simpa using hcomma.append_spells hspells'

end Derives

/-! ## Skipping values -/

/-- All values of the phrase may be skipped. -/
def Phrase.Skips : Phrase → Prop
  | .value t | .element t | .member _ t => t.skip = .ok ()
  | .items ts => ∀ t ∈ ts, t.skip = .ok ()
  | .members ms => ∀ m ∈ ms, m.2.skip = .ok ()

/-- Whatever is derived may be skipped, with numbers of any size and units of any value. -/
theorem Derives.skips {cs : List Char} {p : Phrase} (h : Derives cs p) : p.Skips := by
  induction h with
  | element _ _ _ ih => exact ih
  | keyed _ _ _ _ ih => exact ih
  | item _ ih => simpa [Phrase.Skips] using ih
  | moreItems _ _ ih ihmore => simpa [Phrase.Skips] using And.intro ih ihmore
  | member _ ih => simpa [Phrase.Skips] using ih
  | moreMembers _ _ ih ihmore => exact List.forall_mem_cons.mpr ⟨ih, ihmore⟩
  | _ => rfl

/-! ## Texts -/

namespace TextOf

variable {text : String} {t : Tree}

theorem written (h : TextOf text t) : Written text t := h.spells

/-- The values of an object may be skipped. -/
theorem skip_value {members : List (Literal × Tree)} (h : TextOf text (.object members .closed)) :
    ∀ m ∈ members, m.2.skip = .ok () := by
  unfold TextOf at h
  generalize text.toList = cs at h
  cases h with
  | element _ hvalue _ =>
      cases hvalue with
      | emptyObject => simp
      | object hmembers => exact hmembers.skips

end TextOf

end ShardedDelivery.Json
