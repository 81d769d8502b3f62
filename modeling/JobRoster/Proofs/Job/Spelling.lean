import JobRoster.Job.Basic
import JobRoster.Job.Envelope
import JobRoster.Job.GroupMatcher
import JobRoster.Proofs.Datum.Spelling

/-!
# Spellings of jobs, triggers and tasks

What a record says that spells a key, a job, a trigger, a matcher, a task or an envelope, as a list of clauses; and that
each of these is read from all of its spellings. A job may be spelled without its data if it has none, and without
saying that it is durable if it is; a trigger without an end, and a task without a parameter and a host, if they have
none. Payloads have one spelling only, as all fields of theirs are data.

A matcher is no record of its own fields: its text, where it has one, stands in a field of one name, and where it has
none, no field may have that name.
-/

namespace JobRoster

/-! ### Keys -/

namespace Key

/-- What a record says that spells a key. -/
def clauses (k : Key) : List Clause := [.required "name" (· = .text k.name), .required "group" (· = .text k.group)]

theorem shape_spells : shape.Spells clauses :=
  (Shape.Spells.both (.required (.of_lawful Codec.text_lawful)) (.required (.of_lawful Codec.text_lawful))).as
    fun _ => rfl

theorem jobCodec_spells : jobCodec.Spells fun k => Spelled k.clauses := shape_spells.codec (by decide)

theorem triggerCodec_spells : triggerCodec.Spells fun k => Spelled k.clauses := shape_spells.codec (by decide)

end Key

/-! ### Jobs -/

namespace Payload

/-- A payload is made up of its clauses. -/
theorem ofList_toList (p : Payload) : Std.ExtTreeMap.ofList p.toList = p := by
  refine Std.ExtTreeMap.ext_getElem? fun name => ?_
  cases hname : p[name]? with
  | some value =>
    exact Std.ExtTreeMap.getElem?_ofList_of_mem Std.ReflCmp.compare_self Std.ExtTreeMap.distinct_keys_toList
      (Std.ExtTreeMap.mem_toList_iff_getElem?_eq_some.2 hname)
  | none =>
    refine Std.ExtTreeMap.getElem?_ofList_of_contains_eq_false ?_
    rw [Std.ExtTreeMap.map_fst_toList_eq_keys, Std.ExtTreeMap.contains_keys,
      Std.ExtTreeMap.contains_eq_isSome_getElem?, hname]
    rfl

/-- Payloads are read back. -/
theorem codec_lawful (dialect : Dialect) : codec.Lawful dialect := fun p => congrArg Except.ok p.ofList_toList

end Payload

namespace Job

/-- What a record says that spells a job. -/
def clauses (j : Job) : List Clause :=
  [.required "key" (Spelled j.key.clauses), .required "job_type" (· = .text j.jobType),
    ⟨"data", (· = Payload.codec.write j.data), j.data = ∅⟩, ⟨"durable", (· = .boolean j.durable), j.durable = true⟩]

theorem codec_spells : codec.Spells fun j => Spelled j.clauses :=
  ((Shape.Spells.both (.required Key.jobCodec_spells) (.both (.required (.of_lawful Codec.text_lawful))
    (.both (.defaulted (.of_lawful Payload.codec_lawful)) (.defaulted (.of_lawful Codec.boolean_lawful))))).as
      fun _ => rfl).codec (by decide)

end Job

/-! ### Triggers -/

theorem MisfirePolicy.codec_lawful (dialect : Dialect) : codec.Lawful dialect :=
  Codec.choice_lawful (by rintro (_ | _) <;> rfl) dialect

namespace Trigger

/-- What a record says that spells a trigger. -/
def clauses (t : Trigger) : List Clause :=
  [.required "key" (Spelled t.key.clauses), .required "job_key" (Spelled t.jobKey.clauses),
    .required "cron_expression" (· = .text t.cron), .required "start_time" (· = .text t.start.write),
    ⟨"end_time", (· = Codec.moment.optional.write t.stop), t.stop = none⟩,
    .required "misfire_policy" (· = .text t.policy.name)]

theorem codec_spells : codec.Spells fun t => Spelled t.clauses :=
  have hstop : ∀ dialect, Codec.moment.optional.Lawful dialect := fun dialect =>
    Codec.optional_lawful (Codec.moment_lawful dialect) fun _ => nofun
  ((Shape.Spells.both (.required Key.triggerCodec_spells) (.both (.required Key.jobCodec_spells)
    (.both (.required (.of_lawful Codec.text_lawful)) (.both (.required (.of_lawful Codec.moment_lawful))
      (.both (.nullable (.of_lawful hstop)) (.required (.of_lawful MisfirePolicy.codec_lawful))))))).as
        fun _ => rfl).codec (by decide)

end Trigger

/-! ### Tasks -/

theorem Command.codec_lawful (dialect : Dialect) : codec.Lawful dialect :=
  Codec.choice_lawful (by rintro (_ | _) <;> rfl) dialect

namespace Task

/-- What a record says that spells a task. -/
def clauses (t : Task) : List Clause :=
  [.required "task_id" (· = .integer t.id.toInt), .required "task_name" (· = .text t.name),
    .required "task_type" (· = .text t.kind),
    ⟨"parameter", (· = Codec.text.optional.write t.parameter), t.parameter = none⟩,
    ⟨"execute_host", (· = Codec.text.optional.write t.host), t.host = none⟩]

theorem codec_spells : codec.Spells fun t => Spelled t.clauses :=
  have htext : ∀ dialect, Codec.text.optional.Lawful dialect := fun dialect =>
    Codec.optional_lawful (Codec.text_lawful dialect) fun _ => nofun
  ((Shape.Spells.both (.required (.of_lawful Codec.signed_lawful)) (.both (.required (.of_lawful Codec.text_lawful))
    (.both (.required (.of_lawful Codec.text_lawful)) (.both (.defaulted (.of_lawful htext))
      (.defaulted (.of_lawful htext)))))).as fun _ => rfl).codec (by decide)

end Task

namespace Envelope

/-- What a record says that spells an envelope. -/
def clauses (e : Envelope) : List Clause :=
  [.required "command_code" (· = .text e.command.name), .required "task_request" (Spelled e.task.clauses)]

theorem codec_spells : codec.Spells fun e => Spelled e.clauses :=
  ((Shape.Spells.both (.required (.of_lawful Command.codec_lawful)) (.required Task.codec_spells)).as
    fun _ => rfl).codec (by decide)

end Envelope

/-! ### Matchers -/

namespace GroupMatcher

/-- What a record says that spells a matcher. -/
def clauses : GroupMatcher → List Clause
  | equals value => tagged "equals" value
  | endsWith value => tagged "ends_with" value
  | startsWith value => tagged "starts_with" value
  | contains value => tagged "contains" value
  | anything => [.required "op" (· = .text "anything"), .excluded "value"]
where
  /-- The name of a kind, and a text. -/
  tagged (name value : String) : List Clause :=
    [.required "op" (· = .text name), .required "value" (· = .text value)]

theorem Kind.codec_lawful (dialect : Dialect) : Kind.codec.Lawful dialect :=
  Codec.choice_lawful (by rintro (_ | _) <;> rfl) dialect

/-- A matcher with a text is written as its kind and its text. -/
theorem spelled_tagged (kind : Kind) (value : String) :
    Spelled (clauses.tagged kind.name value) (write.tagged kind value) := by
  refine ⟨_, rfl, fun e he => ?_⟩
  simp only [clauses.tagged, List.mem_cons, List.not_mem_nil, or_false] at he
  obtain rfl | rfl := he <;> simp [Clause.In, Clause.required, Kind.codec, Codec.choice]

/-- A matcher with a text is read from the name of its kind and its text. -/
theorem read_tagged {dialect : Dialect} (kind : Kind) {value : String} {d : Datum}
    (h : Spelled (clauses.tagged kind.name value) d) : read dialect d = ofKind dialect kind (.text value) := by
  obtain ⟨fields, rfl, h⟩ := h
  obtain ⟨_, hop, rfl⟩ := (h _ List.mem_cons_self).exists_of_required
  obtain ⟨_, hvalue, rfl⟩ := (h _ (List.mem_cons_of_mem _ List.mem_cons_self)).exists_of_required
  have hkind : Kind.codec.read dialect (.text kind.name) = .ok kind := Kind.codec_lawful dialect kind
  simp only [read, hop, hvalue, hkind]
  rfl

theorem codec_spells : codec.Spells fun m => Spelled m.clauses where
  written m := by
    cases m with
    | equals value => exact spelled_tagged .equals value
    | endsWith value => exact spelled_tagged .endsWith value
    | startsWith value => exact spelled_tagged .startsWith value
    | contains value => exact spelled_tagged .contains value
    | anything =>
      refine ⟨_, rfl, fun e he => ?_⟩
      simp only [clauses, List.mem_cons, List.not_mem_nil, or_false] at he
      obtain rfl | rfl := he <;> simp [Clause.In, Clause.required, Clause.excluded, Kind.codec, Codec.choice, Kind.name]
  read dialect m d h := by
    cases m with
    | equals value => exact read_tagged .equals h
    | endsWith value => exact read_tagged .endsWith h
    | startsWith value => exact read_tagged .startsWith h
    | contains value => exact read_tagged .contains h
    | anything =>
      obtain ⟨fields, rfl, h⟩ := h
      obtain ⟨_, hop, rfl⟩ := (h _ List.mem_cons_self).exists_of_required
      have hvalue := (h _ (List.mem_cons_of_mem _ List.mem_cons_self)).eq_none_of_excluded
      have hkind : Kind.codec.read dialect (.text "anything") = .ok .anything := Kind.codec_lawful dialect .anything
      change read dialect (.record fields) = .ok anything
      simp only [read, hop, hvalue, hkind]
      rfl

end GroupMatcher

end JobRoster
