import JobRoster.Datum.Codec
import JobRoster.Proofs.Instant.Writing
import Mathlib.Data.List.Nodup

/-!
# Spellings

A value can be spelled as data in more ways than the one in which it is written. A field may be left out where its value
is the default, and a record may have fields of other names, which say nothing. What a spelling has to say, field by
field, is a list of clauses (`Spelled`). It goes on saying that when a field is left out, put in, or replaced by another
spelling of the same value (`Spelled.put`, `Spelled.leaveOut`), so nested records can be respelled as well.

A codec spells the values of a type if what it writes is a spelling, and it reads every spelling as the value that is
spelled (`Codec.Spells`). Codecs of plain values have only one spelling, the data that they write. Codecs of records are
put together from fields, and so is what is known of them: of one field (`Shape.Spells.single`), of the fields of two
records one after another (`Shape.Spells.both`), and of the whole record (`Shape.Spells.codec`), given that the names
are distinct.
-/

namespace JobRoster

/-! ### Fields in order -/

namespace Datum

variable {name : String} {value : Datum} {f : String × Datum} {fields acc : List (String × Datum)}

theorem mem_of_mem_insertField (h : f ∈ insertField name value fields) : f = (name, value) ∨ f ∈ fields := by
  induction fields with
  | nil => simpa [insertField] using h
  | cons g rest ih =>
    unfold insertField at h
    split at h
    · exact List.mem_cons.1 h
    · split at h
      · exact (List.mem_cons.1 h).imp_right (List.mem_cons_of_mem _)
      · obtain rfl | h := List.mem_cons.1 h
        · exact .inr List.mem_cons_self
        · exact (ih h).imp_right (List.mem_cons_of_mem _)

theorem mem_insertField_self (name : String) (value : Datum) (fields : List (String × Datum)) :
    (name, value) ∈ insertField name value fields := by
  induction fields with
  | nil => exact List.mem_cons_self
  | cons g rest ih =>
    unfold insertField
    split
    · exact List.mem_cons_self
    · split
      · exact List.mem_cons_self
      · exact List.mem_cons_of_mem _ ih

/-- Fields of other names stay. -/
theorem mem_insertField_of_ne (hf : f ∈ fields) (hne : f.1 ≠ name) : f ∈ insertField name value fields := by
  induction fields with
  | nil => cases hf
  | cons g rest ih =>
    unfold insertField
    split
    · exact List.mem_cons_of_mem _ hf
    · split
      · next heq =>
        obtain rfl | hf := List.mem_cons.1 hf
        · exact absurd heq.symm hne
        · exact List.mem_cons_of_mem _ hf
      · obtain rfl | hf := List.mem_cons.1 hf
        · exact List.mem_cons_self
        · exact List.mem_cons_of_mem _ (ih hf)

theorem mem_of_mem_foldl_insertField (h : f ∈ fields.foldl (fun acc f => insertField f.1 f.2 acc) acc) :
    f ∈ fields ∨ f ∈ acc := by
  induction fields generalizing acc with
  | nil => exact .inr h
  | cons g rest ih =>
    obtain hrest | hacc := ih h
    · exact .inl (List.mem_cons_of_mem _ hrest)
    · obtain rfl | hacc := mem_of_mem_insertField hacc
      · exact .inl List.mem_cons_self
      · exact .inr hacc

/-- Fields of distinct names all stand in the record that is made of them. -/
theorem mem_foldl_insertField (hnodup : (fields.map Prod.fst).Nodup)
    (h : f ∈ fields ∨ f ∈ acc ∧ f.1 ∉ fields.map Prod.fst) :
    f ∈ fields.foldl (fun acc f => insertField f.1 f.2 acc) acc := by
  induction fields generalizing acc with
  | nil => exact (h.resolve_left List.not_mem_nil).1
  | cons g rest ih =>
    obtain ⟨hg, hrest⟩ := List.nodup_cons.1 hnodup
    refine ih hrest ?_
    obtain h | ⟨hacc, hnot⟩ := h
    · obtain rfl | h := List.mem_cons.1 h
      · exact .inr ⟨mem_insertField_self _ _ _, hg⟩
      · exact .inl h
    · obtain ⟨hne, hnot⟩ := not_or.1 (mt List.mem_cons.2 hnot)
      exact .inr ⟨mem_insertField_of_ne hacc hne, hnot⟩

theorem mem_of_lookUp? (h : lookUp? name fields = some value) : (name, value) ∈ fields := by
  obtain ⟨before, behind, rfl, -⟩ := List.lookup_eq_some_iff.1 h
  simp

theorem lookUp?_ne_none (h : (name, value) ∈ fields) : lookUp? name fields ≠ none := by
  intro hnone
  have := List.lookup_eq_none_iff.1 hnone _ h
  simp at this

end Datum

/-! ### Clauses -/

/-- What a record says in one of its fields. -/
structure Clause where
  /-- The name of the field. -/
  name : String
  /-- The data that may stand there. -/
  spells : Datum → Prop
  /-- Whether the field may be left out. -/
  omissible : Prop

namespace Clause

/-- A field that has to be there. -/
def required (name : String) (spells : Datum → Prop) : Clause := ⟨name, spells, False⟩

/-- A field that may not be there. -/
def excluded (name : String) : Clause := ⟨name, fun _ => False, True⟩

/-- Some fields say what is to be said: whatever stands under the name may stand there, and something does unless the
field may be left out. -/
def In (e : Clause) (fields : List (String × Datum)) : Prop :=
  (∀ d, (e.name, d) ∈ fields → e.spells d) ∧ (e.omissible ∨ ∃ d, (e.name, d) ∈ fields)

/-- What is found under the name of a clause may stand there, and what is not found may be left out. -/
theorem In.lookUp? {e : Clause} {fields : List (String × Datum)} (h : e.In fields) :
    (∃ d, Datum.lookUp? e.name fields = some d ∧ e.spells d) ∨ Datum.lookUp? e.name fields = none ∧ e.omissible := by
  obtain ⟨hspells, hthere⟩ := h
  cases hfound : Datum.lookUp? e.name fields with
  | some d => exact .inl ⟨d, rfl, hspells d (Datum.mem_of_lookUp? hfound)⟩
  | none => exact .inr ⟨rfl, hthere.resolve_right fun ⟨_, hd⟩ => Datum.lookUp?_ne_none hd hfound⟩

theorem In.exists_of_required {name : String} {spells : Datum → Prop} {fields : List (String × Datum)}
    (h : (required name spells).In fields) : ∃ d, Datum.lookUp? name fields = some d ∧ spells d :=
  h.lookUp?.resolve_right fun hnone => hnone.2

theorem In.eq_none_of_excluded {name : String} {fields : List (String × Datum)} (h : (excluded name).In fields) :
    Datum.lookUp? name fields = none :=
  (h.lookUp?.resolve_left fun ⟨_, hsome⟩ => hsome.2).1

end Clause

/-- **A record says all that is to be said**, and in fields of other names it may say anything. -/
def Spelled (clauses : List Clause) (d : Datum) : Prop := ∃ fields, d = .record fields ∧ ∀ e ∈ clauses, e.In fields

namespace Spelled

variable {clauses : List Clause} {fields : List (String × Datum)} {name : String} {value : Datum}

/-- A field can be put in, or in the place of another one, if it says what is to be said under its name. Under another
name than those of the clauses it can say anything. -/
theorem put (h : Spelled clauses (.record fields)) (hvalue : ∀ e ∈ clauses, e.name = name → e.spells value) :
    Spelled clauses (.record (Datum.insertField name value fields)) := by
  obtain ⟨_, ⟨⟩, h⟩ := h
  refine ⟨_, rfl, fun e he => ⟨fun d hd => ?_, ?_⟩⟩
  · obtain heq | hd := Datum.mem_of_mem_insertField hd
    · cases heq
      exact hvalue e he rfl
    · exact (h e he).1 d hd
  · refine (h e he).2.imp_right fun ⟨d, hd⟩ => ?_
    by_cases hname : e.name = name
    · subst hname
      exact ⟨value, Datum.mem_insertField_self _ _ _⟩
    · exact ⟨d, Datum.mem_insertField_of_ne hd hname⟩

/-- A field can be left out if nothing has to be said under its name. -/
theorem leaveOut (h : Spelled clauses (.record fields)) (hname : ∀ e ∈ clauses, e.name = name → e.omissible) :
    Spelled clauses (.record (fields.filter fun f => f.1 ≠ name)) := by
  obtain ⟨_, ⟨⟩, h⟩ := h
  refine ⟨_, rfl, fun e he => ⟨fun d hd => (h e he).1 d (List.mem_filter.1 hd).1, ?_⟩⟩
  by_cases heq : e.name = name
  · exact .inl (hname e he heq)
  · exact (h e he).2.imp_right fun ⟨d, hd⟩ => ⟨d, List.mem_filter.2 ⟨hd, by simpa using heq⟩⟩

end Spelled

/-! ### Codecs -/

variable {α β : Type}

/-- **A codec writes a spelling of every value, and reads every spelling as the value that it spells.** -/
structure Codec.Spells (c : Codec α) (spelled : α → Datum → Prop) : Prop where
  /-- What is written is a spelling. -/
  written : ∀ a, spelled a (c.write a)
  /-- Every spelling of a value is read as that value. -/
  read : ∀ dialect a d, spelled a d → c.read dialect d = .ok a

namespace Codec

/-- Values that are read back have one spelling at least, the data that are written. -/
theorem Spells.of_lawful {c : Codec α} (h : ∀ dialect, c.Lawful dialect) : c.Spells fun a d => d = c.write a where
  written _ := rfl
  read dialect a _ hd := hd ▸ h dialect a

theorem text_lawful (dialect : Dialect) : text.Lawful dialect := fun _ => rfl

theorem boolean_lawful (dialect : Dialect) : boolean.Lawful dialect := fun _ => rfl

/-- All integers of 64 bits are in bounds. -/
theorem signed_lawful (dialect : Dialect) : signed.Lawful dialect := by
  intro i
  have hlow := i.le_toInt
  have hhigh := i.toInt_lt
  have hbounds : Datum.minInteger ≤ i.toInt ∧ i.toInt ≤ Datum.maxSigned := by
    unfold Datum.minInteger Datum.maxSigned
    omega
  simp only [signed, if_pos hbounds, Int64.ofInt_toInt]

theorem moment_lawful (dialect : Dialect) : moment.Lawful dialect := by
  intro t
  simp only [moment, t.read_write]
  rfl

/-- A value that may be absent is read back, as null does not stand for one that is there. -/
theorem optional_lawful {c : Codec α} {dialect : Dialect} (h : c.Lawful dialect) (hnull : ∀ a, c.write a ≠ .null) :
    c.optional.Lawful dialect := by
  rintro (_ | a)
  · rfl
  · simp only [optional]
    split
    · next heq => exact absurd heq (hnull a)
    · rw [h a]
      rfl

theorem choice_lawful {all : List α} {name : α → String} (h : ∀ a, pick all name (name a) = .ok a)
    (dialect : Dialect) : (choice all name).Lawful dialect := h

end Codec

/-- **A codec reads records back, however they are spelled**: as they are written, with fields left out that may be, with
fields of other names, and with other spellings of the values of their fields. -/
structure Codec.ReadsBack (c : Codec α) (clauses : α → List Clause) : Prop where
  /-- What is written is a spelling. -/
  written : ∀ a, Spelled (clauses a) (c.write a)
  /-- It is still one without a field that may be left out. -/
  leaveOut : ∀ a fields name, (∀ e ∈ clauses a, e.name = name → e.omissible) → Spelled (clauses a) (.record fields) →
    Spelled (clauses a) (.record (fields.filter fun f => f.1 ≠ name))
  /-- It is still one with another field, if that has another name than all clauses or spells the value of its clause. -/
  put : ∀ a fields name value, (∀ e ∈ clauses a, e.name = name → e.spells value) →
    Spelled (clauses a) (.record fields) → Spelled (clauses a) (.record (Datum.insertField name value fields))
  /-- Every spelling of a value is read as that value. -/
  read : ∀ dialect a d, Spelled (clauses a) d → c.read dialect d = .ok a

theorem Codec.Spells.readsBack {c : Codec α} {clauses : α → List Clause} (h : c.Spells fun a => Spelled (clauses a)) :
    c.ReadsBack clauses where
  written := h.written
  leaveOut _ _ _ hname hspelled := hspelled.leaveOut hname
  put _ _ _ _ hvalue hspelled := hspelled.put hvalue
  read := h.read

/-! ### Records -/

/-- **The fields of a record are spelled by clauses.** -/
structure Shape.Spells (s : Shape α) (clauses : α → List Clause) : Prop where
  /-- The fields that are written have the declared names. -/
  names : ∀ a, (s.fields a).map Prod.fst = s.names
  /-- What is to be said is written. -/
  written : ∀ a, ∀ e ∈ clauses a, ∃ d, (e.name, d) ∈ s.fields a ∧ e.spells d
  /-- A value is read from fields that say what is to be said. -/
  ofFields : ∀ dialect a fields, (∀ e ∈ clauses a, e.In fields) → s.ofFields dialect fields = .ok a
  /-- Nothing is wrong with the values of such fields. -/
  fault : ∀ dialect a fields, (∀ e ∈ clauses a, e.In fields) → ∀ f ∈ fields, s.fault dialect f.1 f.2 = none

namespace Shape

/-- One field is spelled as its values are, and may be left out where its value is the default. -/
theorem Spells.single {f : RecordField α} {spelled : α → Datum → Prop} (hc : f.codec.Spells spelled)
    {omissible : α → Prop} (hdefault : ∀ a, omissible a → f.absent = some a) :
    (Shape.single f).Spells fun a => [⟨f.name, spelled a, omissible a⟩] where
  names _ := rfl
  written a e he := by
    cases List.mem_singleton.1 he
    exact ⟨f.codec.write a, List.mem_cons_self, hc.written a⟩
  ofFields dialect a fields h := by
    obtain ⟨d, hfound, hspells⟩ | ⟨hfound, homissible⟩ := (h _ List.mem_cons_self).lookUp?
    · simp only [Shape.single, hfound]
      exact hc.read dialect a d hspells
    · simp only [Shape.single, hfound, hdefault a homissible]
  fault dialect a fields h g hg := by
    obtain ⟨hspells, -⟩ := h _ List.mem_cons_self
    simp only [Shape.single]
    split
    · next heq =>
      rw [hc.read dialect a g.2 (hspells _ (heq ▸ hg))]
    · rfl

/-- A field that has to be there. -/
theorem Spells.required {name : String} {c : Codec α} {spelled : α → Datum → Prop} (hc : c.Spells spelled) :
    (Shape.single (.required name c)).Spells fun a => [.required name (spelled a)] :=
  .single (f := .required name c) hc fun _ h => h.elim

/-- A field with a default may be left out where its value is the default. -/
theorem Spells.defaulted {name : String} {c : Codec α} {spelled : α → Datum → Prop} (hc : c.Spells spelled)
    {value : α} : (Shape.single (.defaulted name c value)).Spells fun a => [⟨name, spelled a, a = value⟩] :=
  .single (f := .defaulted name c value) hc fun _ h => h ▸ rfl

/-- A field with a value that may be absent may be left out where it is. -/
theorem Spells.nullable {name : String} {c : Codec α} {spelled : Option α → Datum → Prop}
    (hc : c.optional.Spells spelled) :
    (Shape.single (.nullable name c)).Spells fun a => [⟨name, spelled a, a = none⟩] :=
  .single (f := .nullable name c) hc fun _ h => h ▸ rfl

/-- The fields of two records, one after another. -/
theorem Spells.both {s : Shape α} {t : Shape β} {clauses : α → List Clause} {clauses' : β → List Clause}
    (hs : s.Spells clauses) (ht : t.Spells clauses') : (s.both t).Spells fun p => clauses p.1 ++ clauses' p.2 where
  names p := by rw [Shape.both, List.map_append, hs.names, ht.names]
  written p e he := by
    obtain he | he := List.mem_append.1 he
    · obtain ⟨d, hd, hspells⟩ := hs.written p.1 e he
      exact ⟨d, List.mem_append_left _ hd, hspells⟩
    · obtain ⟨d, hd, hspells⟩ := ht.written p.2 e he
      exact ⟨d, List.mem_append_right _ hd, hspells⟩
  ofFields dialect p fields h := by
    obtain ⟨h, h'⟩ := List.forall_mem_append.1 h
    simp only [Shape.both, hs.ofFields dialect p.1 fields h, ht.ofFields dialect p.2 fields h']
    rfl
  fault dialect p fields h f hf := by
    obtain ⟨h, h'⟩ := List.forall_mem_append.1 h
    simp only [Shape.both, hs.fault dialect p.1 fields h f hf, ht.fault dialect p.2 fields h' f hf]
    rfl

/-- The same record as a value of another type. -/
theorem Spells.as {s : Shape α} {clauses : α → List Clause} (hs : s.Spells clauses) {make : α → β} {split : β → α}
    (hmake : ∀ b, make (split b) = b) : (s.as make split).Spells fun b => clauses (split b) where
  names b := hs.names (split b)
  written b := hs.written (split b)
  ofFields dialect b fields h := by
    simp only [Shape.as, hs.ofFields dialect (split b) fields h]
    exact congrArg Except.ok (hmake b)
  fault dialect b := hs.fault dialect (split b)

/-- **A record is spelled by clauses**, if the names of its fields are distinct. -/
theorem Spells.codec {s : Shape α} {clauses : α → List Clause} (hs : s.Spells clauses) (hnames : s.names.Nodup)
    {label : String} : (s.codec label).Spells fun a => Spelled (clauses a) where
  written a := by
    have hnodup : ((s.fields a).map Prod.fst).Nodup := hs.names a ▸ hnames
    refine ⟨_, rfl, fun e he => ?_⟩
    obtain ⟨d, hd, hspells⟩ := hs.written a e he
    refine ⟨fun d' hd' => ?_, .inr ⟨d, Datum.mem_foldl_insertField hnodup (.inl hd)⟩⟩
    obtain hd' | hd' := Datum.mem_of_mem_foldl_insertField hd'
    · have heq := List.inj_on_of_nodup_map hnodup hd hd' rfl
      cases heq
      exact hspells
    · cases hd'
  read dialect a d := by
    rintro ⟨fields, rfl, h⟩
    have hfault : (fields.findSome? fun f => s.fault dialect f.1 f.2) = none :=
      List.findSome?_eq_none_iff.2 (hs.fault dialect a fields h)
    simp only [Shape.codec, hfault]
    exact hs.ofFields dialect a fields h

end Shape

end JobRoster
