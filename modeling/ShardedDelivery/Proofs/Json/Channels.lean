import ShardedDelivery.Channel.Json
import ShardedDelivery.Proofs.Channel.Forms
import ShardedDelivery.Proofs.Json.Derivation

/-! # Texts of channel identifiers

Strings in a text mean what they are read as. Those that spell an identifier are read as it, so it
keeps its shard; all else is refused. -/

namespace ShardedDelivery

namespace Json

/-! ## Meaning of strings -/

namespace Literal

variable {l : Literal} {cs : List Char}

/-- All units are of 16 bits. -/
def Narrow (l : Literal) : Prop := ∀ u, .unit u ∈ l → u < 0x10000

theorem Narrow.tail {p : Piece} (h : Narrow (p :: l)) : Narrow l := fun u hu =>
  h u (List.mem_cons_of_mem _ hu)

/-- Four digits spell no more than 16 bits. -/
theorem Spelling.narrow (h : l.Spelling cs) : l.Narrow := by
  obtain ⟨css, hpieces, -⟩ := h
  induction hpieces with
  | nil => nofun
  | cons hpiece _ ih =>
      intro u hu
      rcases List.mem_cons.mp hu with rfl | hu
      · cases hpiece with
        | unit ha hb hc hd =>
            have hi := ha.1
            have hj := hb.1
            have hk := hc.1
            have hl := hd.1
            omega
      · exact ih u hu

/-- A unit that is half of no pair stands for a character. -/
theorem Denotes.ofUnit {u : Nat} (h : l.Denotes cs) (hu : u < 0x10000) (hlead : ¬ isLead u)
    (htrail : ¬ isTrail u) : Denotes (.unit u :: l) (Char.ofNat u :: cs) := by
  have hvalid : u.isValidChar := by
    simp only [isLead, isTrail, Bool.and_eq_true, decide_eq_true_eq] at hlead htrail
    simp only [Nat.isValidChar]
    omega
  have hsame : (Char.ofNat u).toNat = u := by
    rw [Char.ofNat, dif_pos hvalid]
    rfl
  simpa only [hsame] using h.unit (Char.ofNat u)

/-- Both halves of a pair stand for a character. -/
theorem Denotes.ofPair {u v : Nat} (h : l.Denotes cs) (hlead : isLead u) (htrail : isTrail v) :
    Denotes (.unit u :: .unit v :: l) (Literal.ofPair u v :: cs) := by
  simp only [isLead, isTrail, Bool.and_eq_true, decide_eq_true_eq] at hlead htrail
  obtain ⟨high, rfl⟩ := Nat.exists_eq_add_of_le hlead.1
  obtain ⟨low, rfl⟩ := Nat.exists_eq_add_of_le htrail.1
  have hvalid : (0x10000 + high * 0x400 + low).isValidChar := by
    simp only [Nat.isValidChar]
    omega
  refine h.pair (by omega) (by omega) ?_
  rw [Literal.ofPair, Nat.add_sub_cancel_left, Nat.add_sub_cancel_left, Char.ofNat, dif_pos hvalid]
  exact congrArg (0x10000 + · + low) (Nat.mul_comm high 0x400)

/-- Characters that are read after a first one. -/
theorem exists_of_map_cons {c : Char} {rest : Option (List Char × Bool)}
    (h : rest.map (fun (cs, unfinished) => (c :: cs, unfinished)) = some (cs, false)) :
    ∃ cs', rest = some (cs', false) ∧ c :: cs' = cs := by
  obtain ⟨⟨cs', _⟩, hrest, heq⟩ := Option.map_eq_some_iff.mp h
  obtain ⟨rfl, rfl⟩ := Prod.mk.inj heq
  exact ⟨cs', hrest, rfl⟩

theorem denotes_of_readSoFar (hnarrow : l.Narrow) (h : readSoFar l = some (cs, false)) :
    l.Denotes cs := by
  fun_induction readSoFar l generalizing cs with
  | case1 =>
      obtain rfl : [] = cs := by simpa using h
      exact .nil
  | case2 c rest ih =>
      obtain ⟨cs, hrest, rfl⟩ := exists_of_map_cons h
      exact (ih hnarrow.tail hrest).plain c
  | case5 u hlead htrail =>
      obtain rfl : [Char.ofNat u] = cs := by simpa using h
      exact Denotes.nil.ofUnit (hnarrow u (by simp)) hlead htrail
  | case7 u c rest hhalf ih =>
      obtain ⟨cs, hrest, rfl⟩ := exists_of_map_cons h
      rw [Bool.or_eq_true, not_or] at hhalf
      exact (ih hnarrow.tail hrest).ofUnit (hnarrow u (by simp)) hhalf.1 hhalf.2
  | case8 u v rest hlead htrail ih =>
      obtain ⟨cs, hrest, rfl⟩ := exists_of_map_cons h
      exact (ih hnarrow.tail.tail hrest).ofPair hlead htrail
  | case11 u v rest hlead htrail ih =>
      obtain ⟨cs, hrest, rfl⟩ := exists_of_map_cons h
      exact (ih hnarrow.tail hrest).ofUnit (hnarrow u (by simp)) hlead htrail
  | case3 => simp at h
  | case4 | case6 | case9 | case10 => nomatch h

/-- What a literal is read as is what it means. -/
theorem read_eq_ok_iff (hnarrow : l.Narrow) {s : String} : l.read = .ok s ↔ l.Denotes s.toList := by
  refine ⟨fun h => ?_, read_of_denotes⟩
  have hchars : readSoFar l = some (s.toList, false) := by
    unfold read read? at h
    split at h
    next s' hs' =>
      obtain rfl := Except.ok.inj h
      split at hs'
      next cs hcs =>
        obtain rfl := Option.some.inj hs'
        rwa [String.toList_ofList]
      next => nomatch hs'
    next => nomatch h
  exact denotes_of_readSoFar hnarrow hchars

end Literal

/-- A string of a text is spelled in four digits a unit. -/
theorem TextOf.narrow {text : String} {l : Literal} (h : TextOf text (.text l)) : l.Narrow := by
  unfold TextOf at h
  generalize text.toList = cs at h
  cases h with
  | element _ hvalue _ =>
      cases hvalue with
      | text hspelling => exact hspelling.narrow

end Json

/-! ## Identifiers -/

namespace ChannelId

open Json

variable {c : ChannelId} {text s : String} {t : Tree}

/-- A string is read as the identifier that it spells, if any. -/
theorem read_of_isText (h : t.IsText s) :
    read t = (ofText? s).elim (.error (.mismatch .notChannel)) .ok := by
  obtain ⟨l, rfl, hl⟩ := h
  have hfound : (Tree.text l).found = .ok (.text s) := by
    rw [Tree.found, Literal.read_of_denotes hl]
    rfl
  simp only [read, hfound, bind, Except.bind]
  cases ofText? s <;> rfl

/-- Only strings are read as identifiers. -/
theorem exists_isText_of_read (htext : TextOf text t) (h : read t = .ok c) : ∃ s, t.IsText s := by
  cases t with
  | text l =>
      cases hl : l.read with
      | ok s => exact ⟨s, l, rfl, (Literal.read_eq_ok_iff htext.narrow).mp hl⟩
      | error fault =>
          rw [read, Tree.found, hl] at h
          contradiction
  | number n =>
      rw [read, Tree.found, Numeral.found] at h
      cases hi : n.integer? with
      | some i =>
          rw [hi] at h
          contradiction
      | none =>
          rw [hi] at h
          cases hlarge : n.isTooLarge <;> rw [hlarge] at h <;> contradiction
  | null | bool | array | object | broken => contradiction

/-- What is read as an identifier is a string that spells it. -/
theorem read_eq_ok_iff (h : TextOf text t) :
    read t = .ok c ↔ ∃ s, t.IsText s ∧ c.Spelling s.toList := by
  have hstring {s : String} (hs : t.IsText s) : read t = .ok c ↔ c.Spelling s.toList := by
    rw [read_of_isText hs, ← ofChars?_eq_some_iff, ofText?]
    cases ofChars? s.toList <;> simp
  constructor
  · intro hread
    obtain ⟨s, hs⟩ := exists_isText_of_read h hread
    exact ⟨s, hs, (hstring hs).mp hread⟩
  · rintro ⟨s, hs, hspelling⟩
    exact (hstring hs).mpr hspelling

/-- Nothing in the written form needs an escape. -/
theorem toList_write (c : ChannelId) : c.write.toList = '"' :: c.text.toList ++ ['"'] := by
  have hescape : ∀ x ∈ c.text.toList, Json.escape x = [x] := by
    have hdigit : ∀ v : Fin 16, Json.escape (Nat.digitChar v) = [Nat.digitChar v] := by decide
    intro x hx
    rw [text, String.toList_ofList] at hx
    rcases mem_chars hx with rfl | ⟨v, hv, rfl⟩
    · rfl
    · exact hdigit ⟨v, hv⟩
  rw [write, writeText, String.toList_ofList, List.flatMap_congr hescape, List.flatMap_singleton']

/-- How identifiers are written and read. -/
structure TextForm : Prop where
  /-- An identifier is written as its bytes in lower case, in groups with hyphens between, and
  that in quotes. -/
  written : ∀ c : ChannelId, toString c = c.text ∧
    c.text.toList = ['-'].intercalate (c.byteGroups.map hex) ∧
    c.write.toList = '"' :: c.text.toList ++ ['"']
  /-- No other identifier is written so. -/
  distinct : ∀ c c' : ChannelId, c.text = c'.text → c = c'
  /-- It is read from strings that spell it, with any escapes and spaces, and from nothing else. -/
  read_iff : ∀ text t, TextOf text t → ∀ c,
    Json.read read text = .ok c ↔ ∃ s, t.IsText s ∧ c.Spelling s.toList
  /-- All other values are refused, and strings among them for what they say. -/
  refused : ∀ text t, TextOf text t → (∀ s c, t.IsText s → ¬ Spelling c s.toList) →
    ∃ fault, Json.read read text = .error fault ∧
      ∀ s, t.IsText s → fault = .mismatch .notChannel
  /-- The identifier that is read has the hash of the one that is spelled, and the shard. -/
  kept : ∀ text t s c, TextOf text t → t.IsText s → Spelling c s.toList →
    ∃ c', Json.read read text = .ok c' ∧ c'.fold = c.fold ∧ ∀ count, c'.shard count = c.shard count

/-- Identifiers survive being written and read, in whichever form. -/
theorem text_form : TextForm where
  written c := ⟨rfl, by rw [text, String.toList_ofList, chars_eq], c.toList_write⟩
  distinct c c' := eq_of_text
  read_iff text t h c := by rw [h.written.read_eq, read_eq_ok_iff h]
  refused text t h hnone := by
    rw [h.written.read_eq]
    cases hread : read t with
    | ok c =>
        obtain ⟨s, hs, hspelling⟩ := (read_eq_ok_iff h).mp hread
        exact absurd hspelling (hnone s c hs)
    | error fault =>
        refine ⟨fault, rfl, fun s hs => ?_⟩
        rw [read_of_isText hs] at hread
        cases hof : ofText? s with
        | none =>
            rw [hof] at hread
            exact (Except.error.inj hread).symm
        | some c =>
            rw [hof] at hread
            nomatch hread
  kept text t s c h hs hspelling :=
    ⟨c, by rw [h.written.read_eq, (read_eq_ok_iff h).mpr ⟨s, hs, hspelling⟩], rfl, fun _ => rfl⟩

/-- A name in mixed case, with an escape. -/
example : Json.read read " \"\\u0055rn:UUID:00000000-0000-00AB-cdef-000000000001\"" =
    .ok ⟨0xAB, 0xCDEF000000000001⟩ := by
  rfl

end ChannelId

end ShardedDelivery
