import ShardedDelivery.Proofs.Json.Fields
import ShardedDelivery.Store.Json

/-! # Texts of dead letters

The four fields of a dead letter are read from an object or from an array, with the same result.
Where some are missing, the first of them is named, wherever the others stand. -/

namespace ShardedDelivery.DeadLetter

open Json

namespace Partial

/-- The fields are what these members give, each at most once. -/
structure GivenBy (p : Partial) (named : List (String × Tree)) : Prop where
  message : AtMostOnce (fun t id => t.IsWord id.value) (valuesOf named "message_id") p.message
  destination : AtMostOnce Tree.IsText (valuesOf named "destination") p.destination
  queue : AtMostOnce Tree.IsText (valuesOf named "dead_letter_queue") p.queue
  movedAt : AtMostOnce Tree.IsWord (valuesOf named "moved_at_secs") p.movedAt

end Partial

/-- All fields of a dead letter. -/
def whole (d : DeadLetter) : Partial :=
  ⟨some d.message, some d.destination, some d.queue, some d.movedAt⟩

/-- The names of the fields, in order. -/
def names : List String := ["message_id", "destination", "dead_letter_queue", "moved_at_secs"]

/-- The first field that these members do not give. -/
def firstAbsent? (named : List (String × Tree)) : Option String :=
  names.find? fun name => (valuesOf named name).isEmpty

/-- The items are the first fields of a dead letter, in order. -/
def InOrder (n : Nat) (d : DeadLetter) (items : List Tree) : Prop :=
  List.Forall₂ (fun t Is => Is t) items
    ([(·.IsWord d.message.value), (·.IsText d.destination), (·.IsText d.queue),
      (·.IsWord d.movedAt)].take n)

/-! ## Reading fields -/

section Fields

variable {f : RecordField Partial} {t : Tree} {p next : Partial}

/-- A field leaves the others as they are. -/
theorem read_frame (hf : f ∈ fields) (h : f.read t p = .ok next) :
    (f.name ≠ "message_id" → next.message = p.message) ∧
      (f.name ≠ "destination" → next.destination = p.destination) ∧
      (f.name ≠ "dead_letter_queue" → next.queue = p.queue) ∧
      (f.name ≠ "moved_at_secs" → next.movedAt = p.movedAt) := by
  simp only [fields, List.mem_cons, List.not_mem_nil, or_false] at hf
  rcases hf with rfl | rfl | rfl | rfl <;>
    obtain ⟨b, -, rfl⟩ := exists_of_bind_pure h <;>
    exact ⟨by simp, by simp, by simp, by simp⟩

theorem keeps_message : fields[0].Keeps fields (·.message)
    (fun id p => { p with message := some id }) MessageId.read where
  find := rfl
  isGiven_eq _ := rfl
  read_eq _ _ := bind_pure_comp _ _
  part_put _ _ := rfl
  others _ hg hname _ _ _ h := (read_frame hg h).1 hname

theorem keeps_destination : fields[1].Keeps fields (·.destination)
    (fun destination p => { p with destination := some destination }) (·.readText) where
  find := rfl
  isGiven_eq _ := rfl
  read_eq _ _ := bind_pure_comp _ _
  part_put _ _ := rfl
  others _ hg hname _ _ _ h := (read_frame hg h).2.1 hname

theorem keeps_queue : fields[2].Keeps fields (·.queue)
    (fun queue p => { p with queue := some queue }) (·.readText) where
  find := rfl
  isGiven_eq _ := rfl
  read_eq _ _ := bind_pure_comp _ _
  part_put _ _ := rfl
  others _ hg hname _ _ _ h := (read_frame hg h).2.2.1 hname

theorem keeps_movedAt : fields[3].Keeps fields (·.movedAt)
    (fun secs p => { p with movedAt := some secs }) (·.readWord "u64") where
  find := rfl
  isGiven_eq _ := rfl
  read_eq _ _ := bind_pure_comp _ _
  part_put _ _ := rfl
  others _ hg hname _ _ _ h := (read_frame hg h).2.2.2 hname

theorem exists_keeps {name : String} (h : name ∈ names) :
    ∃ (f : RecordField Partial) (β : Type) (part : Partial → Option β)
      (put : β → Partial → Partial) (value : Tree → Except Fault β),
      f.name = name ∧ f.Keeps fields part put value := by
  simp only [names, List.mem_cons, List.not_mem_nil, or_false] at h
  rcases h with rfl | rfl | rfl | rfl
  · exact ⟨_, _, _, _, _, rfl, keeps_message⟩
  · exact ⟨_, _, _, _, _, rfl, keeps_destination⟩
  · exact ⟨_, _, _, _, _, rfl, keeps_queue⟩
  · exact ⟨_, _, _, _, _, rfl, keeps_movedAt⟩

theorem read_message_of_isWord {id : MessageId} (h : t.IsWord id.value) :
    MessageId.read t = .ok id := by
  rw [MessageId.read, Tree.readWord_of_isWord h]
  rfl

end Fields

/-- The fields that members give are read, whatever the order and whatever else is there. -/
theorem readMembers_eq {members : List (Literal × Tree)} {named : List (String × Tree)}
    {p : Partial} (hnamed : ReadAs members named) (hskip : ∀ m ∈ members, m.2.skip = .ok ())
    (hp : p.GivenBy named) : Schema.readMembers fields members {} = .ok p := by
  have hmessage := hp.message.imp fun _ _ h => read_message_of_isWord h
  have hdestination := hp.destination.imp fun _ _ h => Tree.readText_of_isText h
  have hqueue := hp.queue.imp fun _ _ h => Tree.readText_of_isText h
  have hmovedAt := hp.movedAt.imp fun _ _ h => Tree.readWord_of_isWord h "u64"
  have htakes : ∀ f ∈ fields, f.Takes fields named {} := by
    simp only [fields, List.forall_mem_cons]
    exact ⟨⟨_, _, _, _, _, keeps_message, hmessage, fun _ => rfl⟩,
      ⟨_, _, _, _, _, keeps_destination, hdestination, fun _ => rfl⟩,
      ⟨_, _, _, _, _, keeps_queue, hqueue, fun _ => rfl⟩,
      ⟨_, _, _, _, _, keeps_movedAt, hmovedAt, fun _ => rfl⟩, by simp⟩
  obtain ⟨next, hnext⟩ := Schema.exists_readMembers hnamed hskip htakes
  obtain rfl : next = p := by
    have h := (keeps_message.gathered hnamed hnext rfl).unique hmessage
    have h' := (keeps_destination.gathered hnamed hnext rfl).unique hdestination
    have h'' := (keeps_queue.gathered hnamed hnext rfl).unique hqueue
    have h''' := (keeps_movedAt.gathered hnamed hnext rfl).unique hmovedAt
    cases next
    cases p
    simp_all
  exact hnext

/-- Values for all fields. -/
def fillings (d : DeadLetter) : List (Filling Partial) := [
  keeps_message.filling d.message (·.IsWord d.message.value) fun _ => read_message_of_isWord,
  keeps_destination.filling d.destination (·.IsText d.destination) fun _ =>
    Tree.readText_of_isText,
  keeps_queue.filling d.queue (·.IsText d.queue) fun _ => Tree.readText_of_isText,
  keeps_movedAt.filling d.movedAt (·.IsWord d.movedAt) fun _ h => Tree.readWord_of_isWord h _]

/-- The first fields are read from an array. -/
theorem readItems_eq (d : DeadLetter) {n : Nat} {items : List Tree} (hitems : d.InOrder n items) :
    Schema.readItems fields items {} =
      .ok (min n 4, (d.fillings.take n).foldl (fun p x => x.fill p) {}) :=
  Schema.readItems_fillings d.fillings hitems {}

/-! ## Texts -/

/-- What texts give for a dead letter. -/
structure ReadsLayouts : Prop where
  /-- An object and an array of the same four values are read as the same dead letter. -/
  layouts : ∀ (d : DeadLetter) text text' members named items,
    TextOf text (.object members .closed) → NamedBy members named → d.whole.GivenBy named →
      TextOf text' (.array items .closed) → d.InOrder 4 items →
        Json.read read text = .ok d ∧ Json.read read text' = .ok d
  /-- Of the fields that an object does not give, the first is named. -/
  missing : ∀ (p : Partial) text members named name,
    TextOf text (.object members .closed) → NamedBy members named → p.GivenBy named →
      firstAbsent? named = some name →
        Json.read read text = .error (.mismatch (.missingField name))
  /-- An object that gives a field twice is refused, wherever and with whatever values. -/
  repeated : ∀ text name key key' t t' before between after, name ∈ names →
    key.Denotes name.toList → key'.Denotes name.toList →
      TextOf text (.object (before ++ (key, t) :: between ++ (key', t') :: after) .closed) →
        ∃ fault, Json.read read text = .error fault
  /-- An array that stops before the last field is refused for its length. -/
  short : ∀ n < 4, ∀ (d : DeadLetter) text items,
    TextOf text (.array items .closed) → d.InOrder n items →
      Json.read read text =
        .error (.mismatch (.wrongLength n "struct DeadLetterEntry with 4 elements"))
  /-- An array with more items than there are fields is refused. -/
  long : ∀ text items, TextOf text (.array items .closed) → 4 < items.length →
    ∃ fault, Json.read read text = .error fault

section Texts

variable {text : String} {members : List (Literal × Tree)} {named : List (String × Tree)}
  {items : List Tree} {d : DeadLetter} {p : Partial}

theorem read_object (h : TextOf text (.object members .closed)) (hnamed : NamedBy members named)
    (hp : p.GivenBy named) : Json.read read text = p.complete.mapError .mismatch := by
  rw [h.written.read_eq]
  exact schema.read_object (readMembers_eq hnamed.readAs h.skip_value hp)

theorem read_array {n : Nat} (h : TextOf text (.array items .closed)) (hitems : d.InOrder n items) :
    Json.read read text = (schema.ofItems (min n 4)
      ((d.fillings.take n).foldl (fun p x => x.fill p) {})).mapError .mismatch := by
  rw [h.written.read_eq]
  exact schema.read_array (d.readItems_eq hitems)

/-- The first field that is missing in the end is the first that is absent from the members. -/
theorem complete_of_absent (hp : p.GivenBy named) {name : String}
    (habsent : firstAbsent? named = some name) : p.complete = .error (.missingField name) := by
  obtain ⟨hmessage, hdestination, hqueue, hmovedAt⟩ := hp
  obtain ⟨message, destination, queue, movedAt⟩ := p
  simp only [firstAbsent?, names, List.find?] at habsent
  generalize valuesOf named "message_id" = values at *
  generalize valuesOf named "destination" = values at *
  generalize valuesOf named "dead_letter_queue" = values at *
  generalize valuesOf named "moved_at_secs" = values at *
  dsimp only at *
  obtain _ | _ := hmessage
  · cases habsent
    rfl
  obtain _ | _ := hdestination
  · cases habsent
    rfl
  obtain _ | _ := hqueue
  · cases habsent
    rfl
  obtain _ | _ := hmovedAt
  · cases habsent
    rfl
  cases habsent

end Texts

/-- It makes no difference how the fields of a dead letter are laid out in a text. -/
theorem reads_layouts : ReadsLayouts where
  layouts d text text' members named items h hnamed hd h' hitems :=
    ⟨read_object h hnamed hd, read_array h' hitems⟩
  missing p text members named name h hnamed hp habsent := by
    rw [read_object h hnamed hp, complete_of_absent hp habsent]
    rfl
  repeated text name key key' t t' before between after hname hkey hkey' h := by
    obtain ⟨f, _, _, _, _, rfl, hkeeps⟩ := exists_keeps hname
    rw [h.written.read_eq]
    exact schema.read_repeated hkeeps (Literal.read_of_denotes hkey)
      (Literal.read_of_denotes hkey') .closed
  short n hn d text items h hitems := by
    rw [read_array h hitems, Nat.min_eq_left (by omega), schema]
    simp only [if_pos (show n < fields.length from hn)]
    rfl
  long text items h hlength := by
    rw [h.written.read_eq]
    exact schema.read_overlong hlength .closed

namespace Rehearsal

/-- Two of the fields, the last one first, and something else between them. -/
def text : String := "\x7b\"moved_at_secs\":5, \"\" :[null],\"message_id\":7\x7d"

def members : List (Literal × Tree) := [
  (.ofText "moved_at_secs", .number ⟨false, ['5'], [], none⟩),
  (.ofText "", .array [.null] .closed),
  (.ofText "message_id", .number ⟨false, ['7'], [], none⟩)]

def named : List (String × Tree) := ["moved_at_secs", "", "message_id"].zip (members.map (·.2))

theorem textOf : TextOf text (.object members .closed) := by
  have hblank : Blank [] := by simp [Blank]
  have hspace : Blank [' '] := by simp [Blank]
  have hdigit (c : Char) (hc : c.isDigit) (hzero : c ≠ '0') :
      Derives [c] (.element (.number ⟨false, [c], [], none⟩)) := by
    have hwhole : WholeDigits [c] := .inr ⟨⟨by simp, by simpa using hc⟩, by simpa using hzero⟩
    have hnumber : Numeral.Spelling _ ⟨false, [c], [], none⟩ := .mk hwhole .absent .absent
    exact .element hblank (.number hnumber) hblank
  have hnull := Derives.element hblank
    (.array (.item (.element hblank .null hblank))) hblank
  have h := Derives.element hblank (.object
    (.moreMembers (.keyed hblank (Literal.spelling_writeText "moved_at_secs") hblank
      (hdigit '5' (by decide) (by decide)))
    (.moreMembers (.keyed hspace (Literal.spelling_writeText "") hspace hnull)
    (.member (.keyed hblank (Literal.spelling_writeText "message_id") hblank
      (hdigit '7' (by decide) (by decide))))))) hblank
  exact h

theorem namedBy : NamedBy members named :=
  .cons ⟨Literal.denotes_ofText _, rfl⟩ (.cons ⟨Literal.denotes_ofText _, rfl⟩
    (.cons ⟨Literal.denotes_ofText _, rfl⟩ .nil))

theorem givenBy : Partial.GivenBy { message := some ⟨7⟩, movedAt := some 5 } named where
  message := .once ⟨['7'], rfl, rfl⟩
  destination := .absent
  queue := .absent
  movedAt := .once ⟨['5'], rfl, rfl⟩

end Rehearsal

/-- The destination is the first field that is missing, though the one before it comes last. -/
theorem reads_layouts_rehearsal : Json.read read Rehearsal.text =
    .error (.mismatch (.missingField "destination")) :=
  reads_layouts.missing _ _ _ _ _ Rehearsal.textOf Rehearsal.namedBy Rehearsal.givenBy rfl

end ShardedDelivery.DeadLetter
