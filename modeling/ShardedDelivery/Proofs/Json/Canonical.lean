import ShardedDelivery.Channel.Json
import ShardedDelivery.Proofs.Channel
import ShardedDelivery.Proofs.Json.DeadLetters

/-! # Canonical texts

Of all the texts that a value can be read from, it is written as one. -/

namespace ShardedDelivery

open Json

namespace Json

variable {α : Type} {reader : Tree → Except Fault α} {writer : α → String}

/-- Reads a text and writes the value again. -/
def rewrite (reader : Tree → Except Fault α) (writer : α → String) (text : String) :
    Except Fault String :=
  (read reader text).map writer

/-- The written text of a value is read as the value, and stands for all texts that are. -/
structure Canonical (reader : Tree → Except Fault α) (writer : α → String) : Prop where
  /-- What is written is read as it was, -/
  read_write : ∀ a, read reader (writer a) = .ok a
  /-- with nothing left over. -/
  used_up : ∀ a, (parse (writer a)).2 = []
  /-- Whatever a text is rewritten as is rewritten as itself. -/
  rewrite_rewrite : ∀ text out, rewrite reader writer text = .ok out →
    rewrite reader writer out = .ok out
  /-- All texts of a value, and no others, are rewritten as its text. -/
  rewrite_iff : ∀ text a, rewrite reader writer text = .ok (writer a) ↔ read reader text = .ok a
  /-- Different values are written as different texts. -/
  injective : Function.Injective writer

/-- A text is canonical if it is a tree that is read as the value. -/
theorem Canonical.of_written (h : ∀ a, ∃ t, Written (writer a) t ∧ reader t = .ok a) :
    Canonical reader writer := by
  have hread : ∀ a, read reader (writer a) = .ok a := by
    intro a
    obtain ⟨t, hwritten, ht⟩ := h a
    rw [hwritten.read_eq, ht]
  have hinj : Function.Injective writer := by
    intro a b hab
    exact Except.ok.inj ((hread a).symm.trans (hab ▸ hread b))
  have hrewrite : ∀ text out, rewrite reader writer text = .ok out ↔
      ∃ a, read reader text = .ok a ∧ writer a = out := by
    intro text out
    rw [rewrite]
    cases read reader text <;> simp [Except.map]
  refine ⟨hread, fun a => ?_, fun text out hout => ?_, fun text a => ?_, hinj⟩
  · obtain ⟨t, hwritten, -⟩ := h a
    rw [hwritten.parse_eq]
  · obtain ⟨a, -, rfl⟩ := (hrewrite text out).mp hout
    exact (hrewrite _ _).mpr ⟨a, hread a, rfl⟩
  · rw [hrewrite]
    refine ⟨?_, fun hr => ⟨a, hr, rfl⟩⟩
    rintro ⟨b, hb, hba⟩
    rw [hb, hinj hba]

end Json

/-! ## Identifiers and kinds -/

theorem MessageId.canonical : Canonical MessageId.read MessageId.write :=
  .of_written fun id => ⟨_, .word id.value, by
    rw [MessageId.read, Tree.readWord_ofNat]
    rfl⟩

theorem MessageKind.canonical : Canonical MessageKind.read MessageKind.write :=
  .of_written fun kind => ⟨_, .text kind.name, by
    simp only [MessageKind.read, Literal.read_ofText]
    cases kind <;> rfl⟩

theorem ChannelId.canonical : Canonical ChannelId.read ChannelId.write :=
  .of_written fun c => ⟨_, .text c.text, by
    have hfound : (Tree.text (.ofText c.text)).found = .ok (.text c.text) := by
      rw [Tree.found, Literal.read_ofText]
      rfl
    simp only [ChannelId.read, hfound, bind, Except.bind, ofText?_text]
    rfl⟩

/-! ## Dead letters -/

namespace DeadLetter

/-- The members that a dead letter is written as. -/
def members (d : DeadLetter) : List (Literal × Tree) := [
  (.ofText "message_id", .number (.ofNat d.message.value.toNat)),
  (.ofText "destination", .text (.ofText d.destination)),
  (.ofText "dead_letter_queue", .text (.ofText d.queue)),
  (.ofText "moved_at_secs", .number (.ofNat d.movedAt.toNat))]

theorem written (d : DeadLetter) : Written d.write (.object d.members .closed) :=
  .object (.cons ⟨rfl, .word _⟩ (.cons ⟨rfl, .text _⟩ (.cons ⟨rfl, .text _⟩
    (.cons ⟨rfl, .word _⟩ .nil))))

theorem read_members (d : DeadLetter) : read (.object d.members .closed) = .ok d := by
  have hnamed : ReadAs d.members (names.zip (d.members.map (·.2))) :=
    .cons ⟨Literal.read_ofText _, rfl⟩ (.cons ⟨Literal.read_ofText _, rfl⟩
      (.cons ⟨Literal.read_ofText _, rfl⟩ (.cons ⟨Literal.read_ofText _, rfl⟩ .nil)))
  have hskip : ∀ m ∈ d.members, m.2.skip = .ok () := by
    simp only [members, List.forall_mem_cons]
    exact ⟨rfl, rfl, rfl, rfl, by simp⟩
  have hgiven : d.whole.GivenBy (names.zip (d.members.map (·.2))) :=
    ⟨.once (Tree.isWord_ofNat _), .once (Tree.isText_ofText _), .once (Tree.isText_ofText _),
      .once (Tree.isWord_ofNat _)⟩
  exact schema.read_object (readMembers_eq hnamed hskip hgiven)

theorem canonical : Canonical DeadLetter.read DeadLetter.write :=
  .of_written fun d => ⟨_, d.written, d.read_members⟩

end DeadLetter

/-- Dead letters, identifiers and kinds are written as canonical texts. -/
theorem written_forms_canonical :
    Canonical DeadLetter.read DeadLetter.write ∧ Canonical ChannelId.read ChannelId.write ∧
      Canonical MessageId.read MessageId.write ∧ Canonical MessageKind.read MessageKind.write :=
  ⟨DeadLetter.canonical, ChannelId.canonical, MessageId.canonical, MessageKind.canonical⟩

/-- Another text of a kind. -/
example : rewrite MessageKind.read MessageKind.write "\x7b \"\\u0054opic\": null\x7d" =
    .ok "\"Topic\"" := by
  rfl

end ShardedDelivery
