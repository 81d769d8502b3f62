/-!
# References to the environment

The environment of a process is a list of entries, which are bytes; an entry that sets a variable is made of its name,
an equals sign and its value. What is asked for by a name is what stands behind the name and an equals sign in the first
entry that begins so. It may be no text, since nothing makes an entry UTF-8; and it may belong to a variable with a
shorter name, as the entry that sets `A` to `B=C` begins with `A=B` and an equals sign as well.

A settings text may refer to a variable as `${NAME}`. A name is any text that is not empty and has no closing brace; it
may hold line ends, dollar signs and equals signs. Each reference is replaced by the value of the variable, and values
are not looked through again. Everything else, an empty or an unclosed reference too, stays as it is.
-/

namespace JobRoster.Settings

/-! ### The environment -/

/-- The bytes of a text in UTF-8. -/
def utf8 (text : String) : List UInt8 := text.toByteArray.data.toList

/-- The text whose bytes in UTF-8 these are. -/
def ofUtf8? (bytes : List UInt8) : Option String := String.fromUTF8? bytes.toByteArray

/-- The equals sign as a byte. -/
def equalsSign : UInt8 := 0x3D

/-- An entry of the environment. -/
structure Entry where
  /-- The bytes of the entry. -/
  bytes : List UInt8
  /-- A zero byte would end the entry. -/
  noZero : 0 ∉ bytes
  deriving DecidableEq

/-- The entry that sets a variable to a text. -/
def Entry.set (name value : String) : Entry where
  bytes := (utf8 (name ++ "=" ++ value)).takeWhile (· ≠ 0)
  noZero h := by simpa using List.all_eq_true.1 List.all_takeWhile 0 h

instance : Coe (String × String) Entry := ⟨fun (name, value) => .set name value⟩

/-- The entries of the environment. -/
abbrev Environment := List Entry

/-- Why there is no text for a name. -/
inductive Lack where
  /-- Nothing is found. -/
  | unset
  /-- What is found is no text. -/
  | notText (value : List UInt8)
  deriving DecidableEq, Repr

namespace Environment

/-- What stands behind a name and an equals sign in the first entry that begins so. An empty name is not looked for. -/
def find? (env : Environment) (name : String) : Option (List UInt8) :=
  if name = "" then none else env.findSome? fun e => (utf8 name ++ [equalsSign]).isPrefixOf? e.bytes

/-- The text that is found under a name. -/
def value (env : Environment) (name : String) : Except Lack String :=
  match env.find? name with
  | none => .error .unset
  | some bytes =>
    match ofUtf8? bytes with
    | some text => .ok text
    | none => .error (.notText bytes)

end Environment

/-! ### References -/

/-- A part of a settings text. -/
inductive Piece where
  /-- A character that stands for itself. -/
  | plain (c : Char)
  /-- A reference to a variable. -/
  | reference (name : List Char)
  deriving DecidableEq, Repr

/-- The reference at the front of a text, as the name in it and the text after it. -/
def reference? (cs : List Char) : Option (List Char × List Char) :=
  match cs with
  | '$' :: '\x7b' :: rest =>
    let name := rest.takeWhile (· ≠ '\x7d')
    match rest.dropWhile (· ≠ '\x7d') with
    | _ :: after => if name.isEmpty then none else some (name, after)
    | [] => none
  | _ => none

theorem length_of_reference? {cs name after : List Char} (h : reference? cs = some (name, after)) :
    after.length < cs.length := by
  unfold reference? at h
  split at h
  · rename_i rest
    dsimp only at h
    split at h
    · rename_i c rest' heq
      split at h
      · cases h
      · cases h
        have := (List.dropWhile_suffix (l := rest) (· ≠ '\x7d')).length_le
        rw [heq] at this
        simp only [List.length_cons] at *
        omega
    · cases h
  · cases h

/-- The parts of a text, found from left to right. -/
def pieces (cs : List Char) : List Piece :=
  match cs with
  | [] => []
  | c :: rest =>
    match _h : reference? (c :: rest) with
    | some (name, after) => .reference name :: pieces after
    | none => .plain c :: pieces rest
termination_by cs.length
decreasing_by
  · exact length_of_reference? _h
  · simp

/-- The name that a part refers to, if there is no text for it. Why that is so makes no difference. -/
def Piece.missing? (env : Environment) : Piece → Option String
  | .plain _ => none
  | .reference name =>
    match env.value (String.ofList name) with
    | .ok _ => none
    | .error _ => some (String.ofList name)

/-- The text that stands in place of a part. -/
def Piece.replaced (env : Environment) : Piece → List Char
  | .plain c => [c]
  | .reference name =>
    match env.value (String.ofList name) with
    | .ok text => text.toList
    | .error _ => []

/-- A text with its references replaced, or the first name in it for which there is no text. -/
def expand (env : Environment) (text : String) : Except String String :=
  let parts := pieces text.toList
  match parts.findSome? (Piece.missing? env) with
  | some name => .error name
  | none => .ok (String.ofList (parts.flatMap (Piece.replaced env)))

/-- The path in which a tilde at the front, alone or before a slash, is replaced by the home directory. -/
def resolvePath (env : Environment) (path : String) : String :=
  match path.toList, env.value "HOME" with
  | '~' :: rest, .ok home =>
    match rest with
    | [] => home
    | c :: _ => if c = '/' then home ++ String.ofList rest else path
  | _, _ => path

end JobRoster.Settings
