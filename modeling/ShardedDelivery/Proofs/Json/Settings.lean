import ShardedDelivery.Config.Json
import ShardedDelivery.Proofs.Json.Fields

/-! # Texts of configurations

Only the settings count in the text of a configuration: not the order in which they stand, not
what else stands there, nor whether they have names. -/

namespace ShardedDelivery

open Json

namespace Settings

/-- The settings are what these members give, each at most once. -/
structure GivenBy (s : Settings) (named : List (String × Tree)) : Prop where
  handlers : AtMostOnce Tree.IsWord (valuesOf named "handler_count") s.handlers
  ringSize : AtMostOnce Tree.IsWord (valuesOf named "ring_size") s.ringSize
  queue : AtMostOnce Tree.IsText (valuesOf named "dead_letter_queue") s.queue

/-- The first of these settings, and no others. -/
def first (k : Nat) (handlers ringSize : UInt64) (queue : String) : Settings where
  handlers := if 0 < k then some handlers else none
  ringSize := if 1 < k then some ringSize else none
  queue := if 2 < k then some queue else none

/-- The items are the first of these settings, in order. -/
def InOrder (k : Nat) (handlers ringSize : UInt64) (queue : String) (items : List Tree) : Prop :=
  List.Forall₂ (fun t Is => Is t) items
    ([(·.IsWord handlers), (·.IsWord ringSize), (·.IsText queue)].take k)

/-! ## Reading settings -/

section Fields

variable {f : RecordField Settings} {t : Tree} {s next : Settings}

/-- A field leaves the others as they are. -/
theorem read_frame (hf : f ∈ fields) (h : f.read t s = .ok next) :
    (f.name ≠ "handler_count" → next.handlers = s.handlers) ∧
      (f.name ≠ "ring_size" → next.ringSize = s.ringSize) ∧
      (f.name ≠ "dead_letter_queue" → next.queue = s.queue) := by
  simp only [fields, List.mem_cons, List.not_mem_nil, or_false] at hf
  rcases hf with rfl | rfl | rfl <;>
    obtain ⟨b, -, rfl⟩ := exists_of_bind_pure h <;>
    exact ⟨by simp, by simp, by simp⟩

theorem keeps_handlers : fields[0].Keeps fields (·.handlers)
    (fun n s => { s with handlers := some n }) (·.readWord "usize") where
  find := rfl
  isGiven_eq _ := rfl
  read_eq _ _ := bind_pure_comp _ _
  part_put _ _ := rfl
  others _ hg hname _ _ _ h := (read_frame hg h).1 hname

theorem keeps_ringSize : fields[1].Keeps fields (·.ringSize)
    (fun n s => { s with ringSize := some n }) (·.readWord "usize") where
  find := rfl
  isGiven_eq _ := rfl
  read_eq _ _ := bind_pure_comp _ _
  part_put _ _ := rfl
  others _ hg hname _ _ _ h := (read_frame hg h).2.1 hname

theorem keeps_queue : fields[2].Keeps fields (·.queue)
    (fun queue s => { s with queue := some queue }) (·.readText) where
  find := rfl
  isGiven_eq _ := rfl
  read_eq _ _ := bind_pure_comp _ _
  part_put _ _ := rfl
  others _ hg hname _ _ _ h := (read_frame hg h).2.2 hname

theorem exists_keeps {name : String}
    (h : name ∈ ["handler_count", "ring_size", "dead_letter_queue"]) :
    ∃ (f : RecordField Settings) (β : Type) (part : Settings → Option β)
      (put : β → Settings → Settings) (value : Tree → Except Fault β),
      f.name = name ∧ f.Keeps fields part put value := by
  simp only [List.mem_cons, List.not_mem_nil, or_false] at h
  rcases h with rfl | rfl | rfl
  · exact ⟨_, _, _, _, _, rfl, keeps_handlers⟩
  · exact ⟨_, _, _, _, _, rfl, keeps_ringSize⟩
  · exact ⟨_, _, _, _, _, rfl, keeps_queue⟩

end Fields

/-- The settings that members give are read, whatever the order and whatever else is there. -/
theorem readMembers_eq {members : List (Literal × Tree)} {named : List (String × Tree)}
    {s : Settings} (hnamed : ReadAs members named) (hskip : ∀ m ∈ members, m.2.skip = .ok ())
    (hs : s.GivenBy named) : Schema.readMembers fields members {} = .ok s := by
  have hhandlers := hs.handlers.imp fun _ _ h => Tree.readWord_of_isWord h "usize"
  have hringSize := hs.ringSize.imp fun _ _ h => Tree.readWord_of_isWord h "usize"
  have hqueue := hs.queue.imp fun _ _ h => Tree.readText_of_isText h
  have htakes : ∀ f ∈ fields, f.Takes fields named {} := by
    simp only [fields, List.forall_mem_cons]
    exact ⟨⟨_, _, _, _, _, keeps_handlers, hhandlers, fun _ => rfl⟩,
      ⟨_, _, _, _, _, keeps_ringSize, hringSize, fun _ => rfl⟩,
      ⟨_, _, _, _, _, keeps_queue, hqueue, fun _ => rfl⟩, by simp⟩
  obtain ⟨next, hnext⟩ := Schema.exists_readMembers hnamed hskip htakes
  obtain rfl : next = s := by
    have h := (keeps_handlers.gathered hnamed hnext rfl).unique hhandlers
    have h' := (keeps_ringSize.gathered hnamed hnext rfl).unique hringSize
    have h'' := (keeps_queue.gathered hnamed hnext rfl).unique hqueue
    cases next
    cases s
    simp_all
  exact hnext

/-- Values for all settings. -/
def fillings (handlers ringSize : UInt64) (queue : String) : List (Filling Settings) := [
  keeps_handlers.filling handlers (·.IsWord handlers) fun _ h => Tree.readWord_of_isWord h _,
  keeps_ringSize.filling ringSize (·.IsWord ringSize) fun _ h => Tree.readWord_of_isWord h _,
  keeps_queue.filling queue (·.IsText queue) fun _ h => Tree.readText_of_isText h]

/-- The first settings are read from an array. -/
theorem readItems_eq {k : Nat} (hk : k ≤ 3) {handlers ringSize : UInt64} {queue : String}
    {items : List Tree} (hitems : InOrder k handlers ringSize queue items) :
    Schema.readItems fields items {} = .ok (k, first k handlers ringSize queue) := by
  have hread := Schema.readItems_fillings (fillings handlers ringSize queue) hitems {}
  match k with
  | 0 | 1 | 2 | 3 => exact hread

end Settings

namespace Config

/-- What texts give for a configuration, on a machine with this many processors. -/
structure ReadsSettings (processors : UInt64) : Prop where
  /-- From an object, in which each setting is given at most once, they are taken as they are but
  for zeros, and the rest are defaults. -/
  objects : ∀ text members named (s : Settings),
    TextOf text (.object members .closed) → NamedBy members named → s.GivenBy named →
      ∃ c, parse processors text = .ok c ∧
        c.handlers = max (s.handlers.getD processors) 1 ∧
        c.ringSize = max (s.ringSize.getD 1024) 1 ∧
        c.queue = s.queue.getD "DeadLetterChannel"
  /-- An object that gives a setting twice is refused, wherever and with whatever values. -/
  repeated : ∀ text name key key' t t' before between after,
    name ∈ ["handler_count", "ring_size", "dead_letter_queue"] →
      key.Denotes name.toList → key'.Denotes name.toList →
      TextOf text (.object (before ++ (key, t) :: between ++ (key', t') :: after) .closed) →
        ∃ fault, parse processors text = .error fault
  /-- An array of the first settings comes to the same as an object of these. -/
  arrays : ∀ k ≤ 3, ∀ handlers ringSize queue text items,
    TextOf text (.array items .closed) → Settings.InOrder k handlers ringSize queue items →
      ∃ c, parse processors text = .ok c ∧ ∀ text' members named,
        TextOf text' (.object members .closed) → NamedBy members named →
          (Settings.first k handlers ringSize queue).GivenBy named →
            parse processors text' = .ok c
  /-- Whatever the text, what it gives is raised to one, so there is no pool without handlers or
  without places. -/
  positive : ∀ text c, parse processors text = .ok c → ∃ s, Settings.parse text = .ok s ∧
    c.handlers = max (s.handlers.getD processors) 1 ∧
    c.ringSize = max (s.ringSize.getD 1024) 1 ∧ 1 ≤ c.handlers ∧ 1 ≤ c.ringSize

section Texts

variable {processors : UInt64} {text : String}

theorem parse_of_textOf {t : Tree} (h : TextOf text t) :
    parse processors text = (Settings.schema.read t).map (·.resolve processors) := by
  rw [parse, Settings.parse, h.written.read_eq]

theorem parse_object {members : List (Literal × Tree)} {named : List (String × Tree)}
    {s : Settings} (h : TextOf text (.object members .closed)) (hnamed : NamedBy members named)
    (hs : s.GivenBy named) : parse processors text = .ok (s.resolve processors) := by
  have hread := Settings.readMembers_eq hnamed.readAs h.skip_value hs
  rw [parse_of_textOf h, Settings.schema.read_object hread]
  rfl

theorem parse_array {k : Nat} (hk : k ≤ 3) {handlers ringSize : UInt64} {queue : String}
    {items : List Tree} (h : TextOf text (.array items .closed))
    (hitems : Settings.InOrder k handlers ringSize queue items) :
    parse processors text =
      .ok ((Settings.first k handlers ringSize queue).resolve processors) := by
  rw [parse_of_textOf h, Settings.schema.read_array (Settings.readItems_eq hk hitems)]
  rfl

theorem one_le_of_pos {n : UInt64} (h : 0 < n) : 1 ≤ n := by
  rw [UInt64.lt_iff_toNat_lt] at h
  rwa [UInt64.le_iff_toNat_le]

theorem positive_eq_max (n : UInt64) : positive n = max n 1 := by
  rw [UInt64.max_def]
  by_cases hn : n = 0
  · rw [hn]
    rfl
  · have hone : 1 ≤ n := one_le_of_pos (UInt64.pos_iff_ne_zero.mpr hn)
    rw [positive, if_neg hn]
    split
    · next hle => exact UInt64.le_antisymm hle hone
    · rfl

end Texts

/-- Only the settings in a text make a difference to the configuration. -/
theorem reads_settings (processors : UInt64) : ReadsSettings processors where
  objects text members named s h hnamed hs :=
    ⟨_, parse_object h hnamed hs, positive_eq_max _, positive_eq_max _, rfl⟩
  repeated text name key key' t t' before between after hname hkey hkey' h := by
    obtain ⟨f, _, _, _, _, rfl, hkeeps⟩ := Settings.exists_keeps hname
    obtain ⟨fault, hfault⟩ := Settings.schema.read_repeated hkeeps
      (Literal.read_of_denotes hkey) (Literal.read_of_denotes hkey') .closed
    exact ⟨fault, by rw [parse_of_textOf h, hfault]; rfl⟩
  arrays k hk handlers ringSize queue text items h hitems :=
    ⟨_, parse_array hk h hitems, fun text' members named h' hnamed hs =>
      parse_object h' hnamed hs⟩
  positive text c hc := by
    rw [parse] at hc
    cases hs : Settings.parse text with
    | error fault =>
        rw [hs] at hc
        contradiction
    | ok s =>
        obtain rfl : s.resolve processors = c := by simpa [hs, Except.map] using hc
        exact ⟨s, rfl, positive_eq_max _, positive_eq_max _, one_le_of_pos (positive_pos _),
          one_le_of_pos (positive_pos _)⟩

namespace Rehearsal

/-- A ring without places, after a setting that does not exist. -/
def text : String := "\x7b\"x\":[\x7b\x7d,\"\\uD800\"], \"\\u0072ing_size\" :0\x7d"

/-- Its last key, in which a letter is escaped. -/
def key : Literal := .unit 0x72 :: Literal.ofText "ing_size"

def members : List (Literal × Tree) := [
  ([.plain 'x'], .array [.object [] .closed, .text [.unit 0xD800]] .closed),
  (key, .number ⟨false, ['0'], [], none⟩)]

theorem denotes_key : key.Denotes "ring_size".toList :=
  .unit 'r' (Literal.denotes_ofText "ing_size")

theorem spelling_key : key.Spelling "\"\\u0072ing_size\"".toList := by
  have hletter : Piece.Spelling ['\\', 'u', '0', '0', '7', '2'] (.unit 0x72) :=
    .unit (.digitChar (by decide : 0 < 16)) (.digitChar (by decide : 0 < 16))
      (.digitChar (by decide : 7 < 16)) (.digitChar (by decide : 2 < 16))
  exact ⟨_, .cons hletter (Literal.pieces_ofText "ing_size"), rfl⟩

theorem textOf : TextOf text (.object members .closed) := by
  have hblank : Blank [] := by simp [Blank]
  have hspace : Blank [' '] := by simp [Blank]
  have hunit : Derives "\"\\uD800\"".toList (.value (.text [.unit 0xD800])) :=
    .text ⟨[['\\', 'u', 'D', '8', '0', '0']], .cons (.unit (⟨by decide, .inr rfl⟩ : HexDigit 'D' 13)
      (.digitChar (by decide : 8 < 16)) (.digitChar (by decide : 0 < 16))
      (.digitChar (by decide : 0 < 16))) .nil, rfl⟩
  have hitems := Derives.array (.moreItems (.element hblank (.emptyObject hblank) hblank)
    (.item (.element hblank hunit hblank)))
  have hx : Literal.Spelling "\"x\"".toList [.plain 'x'] := Literal.spelling_writeText "x"
  have hzero := Derives.number (n := ⟨false, ['0'], [], none⟩) (.mk (.inl rfl) .absent .absent)
  have h := Derives.element hblank (.object (.moreMembers
    (.keyed hblank hx hblank (.element hblank hitems hblank))
    (.member (.keyed hspace spelling_key hspace (.element hblank hzero hblank))))) hblank
  exact h

theorem namedBy : NamedBy members (["x", "ring_size"].zip (members.map (·.2))) :=
  .cons ⟨Literal.denotes_ofText "x", rfl⟩ (.cons ⟨denotes_key, rfl⟩ .nil)

theorem givenBy : Settings.GivenBy { ringSize := some 0 }
    (["x", "ring_size"].zip (members.map (·.2))) where
  handlers := .absent
  ringSize := .once ⟨['0'], rfl, rfl⟩
  queue := .absent

end Rehearsal

/-- The unknown setting is skipped, and the ring gets a place after all. -/
theorem reads_settings_rehearsal : ∃ c, parse 8 Rehearsal.text = .ok c ∧
    c.handlers = 8 ∧ c.ringSize = 1 ∧ c.queue = "DeadLetterChannel" :=
  (reads_settings 8).objects _ _ _ _ Rehearsal.textOf Rehearsal.namedBy Rehearsal.givenBy

end Config

end ShardedDelivery
