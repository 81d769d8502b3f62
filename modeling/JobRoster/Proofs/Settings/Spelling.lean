import JobRoster.Proofs.Job.Spelling
import JobRoster.Settings.Basic

/-!
# Spellings of settings

All tables of the settings may be left out, and all fields of the tables, where they are as when nothing is set.

Main statement: `records_read_back`. Whatever is exchanged as data is read from all of its spellings: keys, payloads, jobs,
triggers, matchers, tasks, envelopes and settings.
-/

namespace JobRoster

theorem LockStrategy.codec_lawful (dialect : Dialect) : codec.Lawful dialect :=
  Codec.choice_lawful (by rintro (_ | _) <;> rfl) dialect

theorem GroupMatch.codec_lawful (dialect : Dialect) : codec.Lawful dialect :=
  Codec.choice_lawful (by rintro (_ | _) <;> rfl) dialect

namespace Naming

/-- What a table says that spells the stems of names. -/
def clauses (n : Naming) : List Clause :=
  [⟨"job_prefix", (· = .text n.jobStem), n.jobStem = "job"⟩,
    ⟨"group_prefix", (· = .text n.groupStem), n.groupStem = "jobgroup"⟩]

theorem codec_spells : codec.Spells fun n => Spelled n.clauses :=
  ((Shape.Spells.both (.defaulted (.of_lawful Codec.text_lawful)) (.defaulted (.of_lawful Codec.text_lawful))).as
    fun _ => rfl).codec (by decide)

end Naming

namespace Settings

/-- What a table says that spells which changes exclude each other. -/
def lockClauses (lock : LockStrategy) : List Clause := [⟨"strategy", (· = .text lock.name), lock = .global⟩]

theorem lockCodec_spells : lockCodec.Spells fun lock => Spelled (lockClauses lock) :=
  (Shape.Spells.defaulted (.of_lawful LockStrategy.codec_lawful)).codec (by decide)

/-- What a table says that spells which groups a deletion reaches. -/
def deletionClauses (groupMatch : GroupMatch) : List Clause :=
  [⟨"group_match", (· = .text groupMatch.name), groupMatch = .suffix⟩]

theorem deletionCodec_spells : deletionCodec.Spells fun groupMatch => Spelled (deletionClauses groupMatch) :=
  (Shape.Spells.defaulted (.of_lawful GroupMatch.codec_lawful)).codec (by decide)

/-- What a record says that spells all settings. -/
def clauses (s : Settings) : List Clause :=
  [⟨"naming", Spelled s.naming.clauses, s.naming = ⟨"job", "jobgroup"⟩⟩,
    ⟨"lock", Spelled (lockClauses s.lock), s.lock = .global⟩,
    ⟨"deletion", Spelled (deletionClauses s.groupMatch), s.groupMatch = .suffix⟩]

theorem codec_spells : codec.Spells fun s => Spelled s.clauses :=
  ((Shape.Spells.both (.defaulted Naming.codec_spells) (.both (.defaulted lockCodec_spells)
    (.defaulted deletionCodec_spells))).as fun _ => rfl).codec (by decide)

end Settings

/-- **Whatever is exchanged as data is read back**, with default values left out and with fields of other names, in nested
records as well; payloads, all of whose fields are data, as they are written. -/
theorem records_read_back :
    (Key.jobCodec.ReadsBack Key.clauses ∧ Key.triggerCodec.ReadsBack Key.clauses) ∧
      (∀ dialect, Payload.codec.Lawful dialect) ∧ Job.codec.ReadsBack Job.clauses ∧
      Trigger.codec.ReadsBack Trigger.clauses ∧ GroupMatcher.codec.ReadsBack GroupMatcher.clauses ∧
      Task.codec.ReadsBack Task.clauses ∧ Envelope.codec.ReadsBack Envelope.clauses ∧
      Settings.codec.ReadsBack Settings.clauses :=
  ⟨⟨Key.jobCodec_spells.readsBack, Key.triggerCodec_spells.readsBack⟩, Payload.codec_lawful, Job.codec_spells.readsBack,
    Trigger.codec_spells.readsBack, GroupMatcher.codec_spells.readsBack, Task.codec_spells.readsBack,
    Envelope.codec_spells.readsBack, Settings.codec_spells.readsBack⟩

example : Settings.codec.read .data (.record [("comment", .null),
    ("naming", .record [("job_prefix", .text "sched"), ("owner", .text "ops")])]) =
      .ok ⟨⟨"sched", "jobgroup"⟩, .global, .suffix⟩ := by decide

end JobRoster
