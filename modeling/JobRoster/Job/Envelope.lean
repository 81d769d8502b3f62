import JobRoster.Datum.Codec

/-!
# Envelopes

The envelope in which a task travels between those who give it out and those who carry it out: a command, and the
task that it is about.
-/

namespace JobRoster

/-- What an envelope asks for or answers. -/
inductive Command where
  /-- A task is to be executed. -/
  | executeRequest
  /-- The execution of a task has been taken on. -/
  | executeAck
  /-- A task has been executed. -/
  | executeResponse
  /-- A task is to be stopped. -/
  | killRequest
  /-- A task has been stopped. -/
  | killResponse
  deriving DecidableEq, Repr

namespace Command

/-- The commands. -/
def all : List Command := [executeRequest, executeAck, executeResponse, killRequest, killResponse]

/-- The name of a command. -/
def name : Command → String
  | executeRequest => "TASK_EXECUTE_REQUEST"
  | executeAck => "TASK_EXECUTE_ACK"
  | executeResponse => "TASK_EXECUTE_RESPONSE"
  | killRequest => "TASK_KILL_REQUEST"
  | killResponse => "TASK_KILL_RESPONSE"

/-- Commands as data. -/
def codec : Codec Command := .choice all name

end Command

/-- A task to be carried out. -/
structure Task where
  /-- The number of the task. -/
  id : Int64
  /-- What the task is called. -/
  name : String
  /-- What kind of task it is. -/
  kind : String
  /-- What it is to work on. -/
  parameter : Option String
  /-- Where it is to be carried out. -/
  host : Option String
  deriving DecidableEq, Repr

namespace Task

instance : Inhabited Task := ⟨⟨0, "", "", none, none⟩⟩

/-- Tasks as data. -/
def codec : Codec Task :=
  Shape.codec
    (((Shape.single (.required "task_id" .signed)).both
      ((Shape.single (.required "task_name" .text)).both
        ((Shape.single (.required "task_type" .text)).both
          ((Shape.single (.defaulted "parameter" (.optional .text) none)).both
            (.single (.defaulted "execute_host" (.optional .text) none)))))).as
      (fun (id, name, kind, parameter, host) => ⟨id, name, kind, parameter, host⟩)
      (fun t => (t.id, t.name, t.kind, t.parameter, t.host)))
    "TaskRequest"

end Task

/-- A command with its task. -/
structure Envelope where
  /-- The command. -/
  command : Command
  /-- The task. -/
  task : Task
  deriving DecidableEq, Repr

namespace Envelope

/-- Envelopes as data. -/
def codec : Codec Envelope :=
  Shape.codec
    (((Shape.single (.required "command_code" Command.codec)).both
      (.single (.required "task_request" Task.codec))).as
      (fun (command, task) => ⟨command, task⟩) (fun e => (e.command, e.task)))
    "TaskResponseContext"

end Envelope

end JobRoster
