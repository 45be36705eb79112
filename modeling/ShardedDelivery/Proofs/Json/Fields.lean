import ShardedDelivery.Proofs.Json.Derivation

/-! # Fields of a record

Every field of a record has its own part of the partial record, and no other field gets at that.
So what an object gives for a field does not depend on the other members, nor on the order. -/

namespace ShardedDelivery.Json

/-! ## Values by name -/

/-- The values that are given under a name. -/
def valuesOf (named : List (String × Tree)) (name : String) : List Tree :=
  (named.filter (·.1 = name)).map (·.2)

section Values

variable {named : List (String × Tree)} {name other : String} {t : Tree}

theorem valuesOf_cons_self : valuesOf ((name, t) :: named) name = t :: valuesOf named name := by
  simp [valuesOf]

theorem valuesOf_cons_of_ne (h : other ≠ name) :
    valuesOf ((other, t) :: named) name = valuesOf named name := by
  simp [valuesOf, h]

end Values

/-- There is no value, or a single one that is what it should be. -/
inductive AtMostOnce {β : Type} (Is : Tree → β → Prop) : List Tree → Option β → Prop where
  | absent : AtMostOnce Is [] none
  | once {t : Tree} {b : β} (h : Is t b) : AtMostOnce Is [t] (some b)

namespace AtMostOnce

variable {β : Type} {Is Is' : Tree → β → Prop} {values : List Tree} {given given' : Option β}

theorem imp (h : AtMostOnce Is values given) (hIs : ∀ t b, Is t b → Is' t b) :
    AtMostOnce Is' values given := by
  cases h with
  | absent => exact .absent
  | once h => exact .once (hIs _ _ h)

theorem unique {value : Tree → Except Fault β}
    (h : AtMostOnce (fun t b => value t = .ok b) values given)
    (h' : AtMostOnce (fun t b => value t = .ok b) values given') : given = given' := by
  cases h with
  | absent =>
      cases h'
      rfl
  | once h =>
      cases h' with
      | once h' => exact congrArg some (Except.ok.inj (h.symm.trans h'))

end AtMostOnce

/-! ## Members -/

/-- What is made of a value is made of one that was read. -/
theorem exists_of_bind_pure {β ρ : Type} {x : Except Fault β} {make : β → ρ} {r : ρ}
    (h : (do return make (← x)) = Except.ok r) : ∃ b, x = .ok b ∧ make b = r := by
  cases x with
  | error fault => cases h
  | ok b => exact ⟨b, rfl, Except.ok.inj h⟩

/-- The keys of these members are read as these names. -/
def ReadAs (members : List (Literal × Tree)) (named : List (String × Tree)) : Prop :=
  List.Forall₂ (fun member name => member.1.read = .ok name.1 ∧ member.2 = name.2) members named

/-- Names that keys mean are names that they are read as. -/
theorem NamedBy.readAs {members : List (Literal × Tree)} {named : List (String × Tree)}
    (h : NamedBy members named) : ReadAs members named :=
  h.imp fun _ _ hmember => ⟨Literal.read_of_denotes hmember.1, hmember.2⟩

/-- A name that no key is read as has no values. -/
theorem ReadAs.valuesOf_eq_nil {members : List (Literal × Tree)} {named : List (String × Tree)}
    (h : ReadAs members named) {name : String} (hname : ∀ m ∈ members, m.1.read ≠ .ok name) :
    valuesOf named name = [] := by
  induction h with
  | nil => rfl
  | cons hmember _ ih =>
      obtain ⟨hkey, hmore⟩ := List.forall_mem_cons.mp hname
      rw [hmember.1] at hkey
      exact (valuesOf_cons_of_ne fun heq => hkey (congrArg Except.ok heq)).trans (ih hmore)

variable {ρ : Type} {fields : List (RecordField ρ)} {members : List (Literal × Tree)}
  {named : List (String × Tree)} {r r' : ρ}

namespace Schema

/-- What it takes to read a member: its key is readable, and then the value of a field that is not
given yet is read, and the value of any other key is skipped. -/
theorem readMembers_cons_eq_ok_iff {key : Literal} {t : Tree} :
    readMembers fields ((key, t) :: members) r = .ok r' ↔ ∃ name, key.read = .ok name ∧
      (fields.find? (·.name = name) = none ∧ t.skip = .ok () ∧
          readMembers fields members r = .ok r' ∨
        ∃ f next, fields.find? (·.name = name) = some f ∧ f.isGiven r = false ∧
          f.read t r = .ok next ∧ readMembers fields members next = .ok r') := by
  rw [readMembers, field?]
  cases hkey : key.read with
  | error fault => simp [bind, Except.bind]
  | ok name =>
      simp only [bind, Except.bind, Except.ok.injEq, exists_eq_left']
      cases hfind : fields.find? (·.name = name) with
      | none => cases t.skip <;> simp [pure, Except.pure]
      | some f =>
          cases hgiven : f.isGiven r with
          | true => simp [throw, throwThe, MonadExceptOf.throw, hgiven]
          | false => cases hread : f.read t r <;> simp [pure, Except.pure, hgiven, hread]

theorem readMembers_append (more : List (Literal × Tree)) :
    readMembers fields (members ++ more) r =
      (readMembers fields members r).bind (readMembers fields more) := by
  induction members generalizing r with
  | nil => rfl
  | cons member members ih =>
      obtain ⟨key, t⟩ := member
      rw [List.cons_append, readMembers, readMembers]
      simp only [bind]
      cases field? fields key r with
      | error fault => rfl
      | ok found =>
          cases found with
          | none =>
              simp only [Except.bind]
              cases t.skip with
              | error fault => rfl
              | ok _ => exact ih
          | some f =>
              simp only [Except.bind]
              cases f.read t r with
              | error fault => rfl
              | ok next => exact ih

end Schema

/-- A field has this part of a partial record to itself, where it puts the value that it reads. -/
structure RecordField.Keeps {β : Type} (f : RecordField ρ) (fields : List (RecordField ρ))
    (part : ρ → Option β) (put : β → ρ → ρ) (value : Tree → Except Fault β) : Prop where
  find : fields.find? (·.name = f.name) = some f
  isGiven_eq : ∀ r, f.isGiven r = (part r).isSome
  read_eq : ∀ t r, f.read t r = (value t).map (put · r)
  part_put : ∀ b r, part (put b r) = some b
  /-- The other fields leave the part as it is. -/
  others : ∀ g ∈ fields, g.name ≠ f.name → ∀ t r next, g.read t r = .ok next → part next = part r

/-- A value for a field, and what a partial record becomes with it. -/
structure Filling (ρ : Type) where
  field : RecordField ρ
  Is : Tree → Prop
  fill : ρ → ρ
  read_eq : ∀ t r, Is t → field.read t r = .ok (fill r)

namespace RecordField.Keeps

open Schema

variable {β : Type} {f : RecordField ρ} {part : ρ → Option β} {put : β → ρ → ρ}
  {value : Tree → Except Fault β}

theorem eq_of_name (h : f.Keeps fields part put value) {g : RecordField ρ} {name : String}
    (hg : fields.find? (·.name = name) = some g) (hname : name = f.name) : g = f := by
  rw [hname, h.find] at hg
  exact (Option.some.inj hg).symm

theorem read_eq_ok_iff (h : f.Keeps fields part put value) {t : Tree} {next : ρ} :
    f.read t r = .ok next ↔ ∃ b, value t = .ok b ∧ put b r = next := by
  rw [h.read_eq]
  cases value t <;> simp [Except.map]

/-- This value for the field. -/
def filling (h : f.Keeps fields part put value) (b : β) (Is : Tree → Prop)
    (hIs : ∀ t, Is t → value t = .ok b) : Filling ρ where
  field := f
  Is
  fill := put b
  read_eq t _ ht := h.read_eq_ok_iff.mpr ⟨b, hIs t ht, rfl⟩

/-- What another field reads makes no difference to this one. -/
theorem part_of_other (h : f.Keeps fields part put value) {g : RecordField ρ} {name : String}
    {t : Tree} {next : ρ} (hg : fields.find? (·.name = name) = some g) (hname : name ≠ f.name)
    (hread : g.read t r = .ok next) : part next = part r := by
  have hgname : g.name = name := by simpa using List.find?_some hg
  exact h.others g (List.mem_of_find?_eq_some hg) (hgname ▸ hname) t r next hread

/-- Once a field is given, it stays as it is, and none of the members that follow is named like
it. -/
theorem kept (h : f.Keeps fields part put value) (hread : readMembers fields members r = .ok r')
    {b : β} (hgiven : part r = some b) :
    part r' = some b ∧ ∀ m ∈ members, m.1.read ≠ .ok f.name := by
  induction members generalizing r with
  | nil =>
      rw [← Except.ok.inj hread]
      exact ⟨hgiven, by simp⟩
  | cons member members ih =>
      obtain ⟨name, hkey, ⟨hfind, -, hrest⟩ | ⟨g, next, hfind, hnot, hnext, hrest⟩⟩ :=
        readMembers_cons_eq_ok_iff.mp hread
      · have hname : name ≠ f.name := by
          rintro rfl
          rw [h.find] at hfind
          contradiction
        obtain ⟨hpart, hmore⟩ := ih hrest hgiven
        exact ⟨hpart, List.forall_mem_cons.mpr ⟨by simp [hkey, hname], hmore⟩⟩
      · have hname : name ≠ f.name := by
          intro hname
          rw [h.eq_of_name hfind hname, h.isGiven_eq, hgiven] at hnot
          contradiction
        obtain ⟨hpart, hmore⟩ := ih hrest ((h.part_of_other hfind hname hnext).trans hgiven)
        exact ⟨hpart, List.forall_mem_cons.mpr ⟨by simp [hkey, hname], hmore⟩⟩

/-- A member that is named like the field gives it. -/
theorem given_of_member (h : f.Keeps fields part put value) {key : Literal} {t : Tree}
    (hkey : key.read = .ok f.name) (hread : readMembers fields ((key, t) :: members) r = .ok r') :
    ∃ b, value t = .ok b ∧ part r = none ∧ readMembers fields members (put b r) = .ok r' := by
  obtain ⟨name, hname, ⟨hfind, -, -⟩ | ⟨g, next, hfind, hnot, hnext, hrest⟩⟩ :=
    readMembers_cons_eq_ok_iff.mp hread
  · obtain rfl := Except.ok.inj (hkey.symm.trans hname)
    rw [h.find] at hfind
    contradiction
  · obtain rfl := Except.ok.inj (hkey.symm.trans hname)
    obtain rfl := h.eq_of_name hfind rfl
    obtain ⟨b, hb, rfl⟩ := h.read_eq_ok_iff.mp hnext
    rw [h.isGiven_eq] at hnot
    exact ⟨b, hb, by simpa using hnot, hrest⟩

/-- A field that is named twice cannot be read, whatever its values are. -/
theorem not_repeated (h : f.Keeps fields part put value) {key key' : Literal} {t t' : Tree}
    {before between after : List (Literal × Tree)} (hkey : key.read = .ok f.name)
    (hkey' : key'.read = .ok f.name) :
    readMembers fields (before ++ (key, t) :: between ++ (key', t') :: after) r ≠ .ok r' := by
  intro hread
  rw [List.append_assoc, readMembers_append] at hread
  cases hbefore : readMembers fields before r with
  | error fault => simp [hbefore, Except.bind] at hread
  | ok next =>
      rw [hbefore] at hread
      obtain ⟨b, -, -, hrest⟩ := h.given_of_member hkey hread
      have hmore := (h.kept hrest (h.part_put b next)).2 (key', t') (by simp)
      exact hmore hkey'

/-- What is given for a field in the end is what the members give under its name. -/
theorem gathered (h : f.Keeps fields part put value) (hnamed : ReadAs members named)
    (hread : readMembers fields members r = .ok r') (hnone : part r = none) :
    AtMostOnce (fun t b => value t = .ok b) (valuesOf named f.name) (part r') := by
  induction hnamed generalizing r with
  | nil =>
      rw [← Except.ok.inj hread, hnone]
      exact .absent
  | @cons member name members named hmember hmembers ih =>
      obtain ⟨key, t⟩ := member
      obtain ⟨name, t'⟩ := name
      obtain ⟨hkey, rfl⟩ : key.read = .ok name ∧ t = t' := hmember
      by_cases hname : name = f.name
      · subst hname
        obtain ⟨b, hb, -, hrest⟩ := h.given_of_member hkey hread
        obtain ⟨hpart, hmore⟩ := h.kept hrest (h.part_put b r)
        rw [valuesOf_cons_self, ReadAs.valuesOf_eq_nil hmembers hmore, hpart]
        exact .once hb
      · rw [valuesOf_cons_of_ne hname]
        obtain ⟨name', hkey', hcases⟩ := readMembers_cons_eq_ok_iff.mp hread
        obtain rfl := Except.ok.inj (hkey.symm.trans hkey')
        obtain ⟨-, -, hrest⟩ | ⟨g, next, hfind, -, hnext, hrest⟩ := hcases
        · exact ih hrest hnone
        · exact ih hrest ((h.part_of_other hfind hname hnext).trans hnone)

end RecordField.Keeps

/-- The field can take what is given under its name. -/
def RecordField.Takes (f : RecordField ρ) (fields : List (RecordField ρ))
    (named : List (String × Tree)) (r : ρ) : Prop :=
  ∃ (β : Type) (part : ρ → Option β) (put : β → ρ → ρ) (value : Tree → Except Fault β)
    (given : Option β), f.Keeps fields part put value ∧
      AtMostOnce (fun t b => value t = .ok b) (valuesOf named f.name) given ∧
      (given.isSome → part r = none)

namespace RecordField.Takes

variable {f : RecordField ρ} {name : String} {t : Tree} {next : ρ}

/-- Another member, which leaves the field as it is, may go first. -/
theorem of_other (h : f.Takes fields ((name, t) :: named) r) (hname : name ≠ f.name)
    (hpart : ∀ {β : Type} {part : ρ → Option β} {put : β → ρ → ρ} {value : Tree → Except Fault β},
      f.Keeps fields part put value → part next = part r) : f.Takes fields named next := by
  obtain ⟨β, part, put, value, given, hkeeps, honce, hnone⟩ := h
  rw [valuesOf_cons_of_ne hname] at honce
  exact ⟨β, part, put, value, given, hkeeps, honce, fun hsome => (hpart hkeeps).trans (hnone hsome)⟩

/-- The first member for the field can be read, and there is none after it. -/
theorem read (h : f.Takes fields ((f.name, t) :: named) r) :
    ∃ next, f.isGiven r = false ∧ f.read t r = .ok next ∧ f.Takes fields named next := by
  obtain ⟨β, part, put, value, given, hkeeps, honce, hnone⟩ := h
  rw [valuesOf_cons_self] at honce
  generalize hlater : valuesOf named f.name = later at honce
  cases honce with
  | @once t b hb =>
      refine ⟨put b r, ?_, hkeeps.read_eq_ok_iff.mpr ⟨b, hb, rfl⟩, ?_⟩
      · rw [hkeeps.isGiven_eq, hnone rfl]
        rfl
      · exact ⟨β, part, put, value, none, hkeeps, hlater ▸ .absent, by simp⟩

end RecordField.Takes

/-! ## Whole records -/

namespace Schema

/-- Members are readable if every field can take what is given for it. -/
theorem exists_readMembers (hnamed : ReadAs members named)
    (hskip : ∀ m ∈ members, m.2.skip = .ok ()) (htakes : ∀ f ∈ fields, f.Takes fields named r) :
    ∃ next, readMembers fields members r = .ok next := by
  induction hnamed generalizing r with
  | nil => exact ⟨r, rfl⟩
  | @cons member name members named hmember hmembers ih =>
      obtain ⟨key, t⟩ := member
      obtain ⟨name, t'⟩ := name
      obtain ⟨hkey, rfl⟩ : key.read = .ok name ∧ t = t' := hmember
      obtain ⟨hvalue, hskip⟩ := List.forall_mem_cons.mp hskip
      cases hfind : fields.find? (·.name = name) with
      | none =>
          have hunknown : ∀ f ∈ fields, name ≠ f.name := by
            intro f hf hname
            have hnot := List.find?_eq_none.mp hfind f hf
            simp [hname] at hnot
          obtain ⟨last, hlast⟩ := ih hskip fun f hf =>
            (htakes f hf).of_other (hunknown f hf) fun _ => rfl
          exact ⟨last, readMembers_cons_eq_ok_iff.mpr ⟨name, hkey, .inl ⟨hfind, hvalue, hlast⟩⟩⟩
      | some f =>
          have hname : f.name = name := by simpa using List.find?_some hfind
          subst hname
          obtain ⟨next, hgiven, hread, htaken⟩ := (htakes f (List.mem_of_find?_eq_some hfind)).read
          have htakes' : ∀ g ∈ fields, g.Takes fields named next := by
            intro g hg
            by_cases hgf : f.name = g.name
            · obtain ⟨_, _, _, _, _, hkeeps, -, -⟩ := htakes g hg
              rwa [hkeeps.eq_of_name hfind hgf] at htaken
            · exact (htakes g hg).of_other hgf fun hkeeps => hkeeps.part_of_other hfind hgf hread
          obtain ⟨last, hlast⟩ := ih hskip htakes'
          exact ⟨last, readMembers_cons_eq_ok_iff.mpr
            ⟨f.name, hkey, .inr ⟨f, next, hfind, hgiven, hread, hlast⟩⟩⟩

/-- The first items of an array fill the first fields. -/
theorem readItems_fillings (fillings : List (Filling ρ)) {n : Nat} {items : List Tree}
    (hitems : List.Forall₂ (fun t Is => Is t) items ((fillings.map (·.Is)).take n)) (r : ρ) :
    readItems (fillings.map (·.field)) items r =
      .ok (min n fillings.length, (fillings.take n).foldl (fun r x => x.fill r) r) := by
  induction fillings generalizing n items r with
  | nil =>
      rw [List.map_nil, List.take_nil] at hitems
      cases hitems
      simp [readItems]
  | cons x fillings ih =>
      cases n with
      | zero =>
          cases hitems
          simp [readItems]
      | succ n =>
          rw [List.map_cons, List.take_succ_cons] at hitems
          obtain _ | ⟨hitem, hitems⟩ := hitems
          simp only [List.map_cons, readItems, x.read_eq _ r hitem, ih hitems, bind, Except.bind]
          simp [pure, Except.pure]

/-- There are no more items than fields. -/
theorem length_le_of_readItems {items : List Tree} {last : Nat × ρ}
    (h : readItems fields items r = .ok last) : items.length ≤ fields.length := by
  induction fields generalizing items r last with
  | nil =>
      cases items with
      | nil => exact Nat.le_refl _
      | cons item items => cases h
  | cons f fields ih =>
      cases items with
      | nil => simp
      | cons item items =>
          rw [readItems] at h
          cases hread : f.read item r with
          | error fault => simp [hread, bind, Except.bind] at h
          | ok next =>
              cases hitems : readItems fields items next with
              | error fault => simp [hread, hitems, bind, Except.bind] at h
              | ok last => simpa using ih hitems

variable {α : Type} (s : Schema ρ α)

theorem read_object (h : readMembers s.fields members s.start = .ok r) :
    s.read (.object members .closed) = (s.ofMembers r).mapError .mismatch := by
  simp only [read, h, readEnd, bind, Except.bind]

theorem read_array {items : List Tree} {n : Nat}
    (h : readItems s.fields items s.start = .ok (n, r)) :
    s.read (.array items .closed) = (s.ofItems n r).mapError .mismatch := by
  simp only [read, h, readEnd, bind, Except.bind]

/-- An object that names a field twice is no record. -/
theorem read_repeated {f : RecordField ρ} {β : Type} {part : ρ → Option β} {put : β → ρ → ρ}
    {value : Tree → Except Fault β} (hkeeps : f.Keeps s.fields part put value)
    {key key' : Literal} {t t' : Tree} {before between after : List (Literal × Tree)}
    (hkey : key.read = .ok f.name) (hkey' : key'.read = .ok f.name) (closing : Closing) :
    ∃ fault, s.read (.object (before ++ (key, t) :: between ++ (key', t') :: after) closing) =
      .error fault := by
  cases hread : readMembers s.fields (before ++ (key, t) :: between ++ (key', t') :: after)
      s.start with
  | error fault => exact ⟨fault, by simp only [read, hread, bind, Except.bind]⟩
  | ok r => exact (hkeeps.not_repeated hkey hkey' hread).elim

/-- An array with more items than there are fields is no record. -/
theorem read_overlong {items : List Tree} (h : s.fields.length < items.length)
    (closing : Closing) : ∃ fault, s.read (.array items closing) = .error fault := by
  cases hread : readItems s.fields items s.start with
  | error fault => exact ⟨fault, by simp only [read, hread, bind, Except.bind]⟩
  | ok last =>
      have hle := length_le_of_readItems hread
      omega

end Schema

end ShardedDelivery.Json
