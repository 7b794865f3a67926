import EventCodec.Bytes
import EventCodec.Config.Basic
import EventCodec.Toml.Document

/-! # Configuration files

    A file is a document whose entries are settings.  A setting that is
    missing has its default, an entry that is no setting means nothing,
    and a setting of the wrong type makes the file unusable. -/

namespace EventCodec.Config

open Toml (Table Entry Value)

/-! ### Settings -/

/-- A setting of one type, if it is there. -/
def setting {α : Type} (read? : Value → Option α) (t : Table) (name : String) :
    Except ConfigError (Option α) :=
  match t.get? name with
  | none => .ok none
  | some (.value v) =>
    match read? v with
    | some a => .ok (some a)
    | none => .error .malformed
  | some _ => .error .malformed

def text? : Value → Option String
  | .text text => some text
  | _ => none

def boolean? : Value → Option Bool
  | .boolean b => some b
  | _ => none

/-- A whole number that is not negative. -/
def word? : Value → Option UInt64
  | .integer n => if 0 ≤ n then some (UInt64.ofNat n.toNat) else none
  | _ => none

/-- The configuration that a table of settings stands for. -/
def ofTable (t : Table) : Except ConfigError Config := do
  let url ← setting text? t "url"
  let timeoutMs ← setting word? t "timeout_ms"
  let username ← setting text? t "username"
  let password ← setting text? t "password"
  let permanentDelete ← setting boolean? t "permanent_delete"
  return {
    url := url.getD default.url
    timeoutMs := timeoutMs.getD default.timeoutMs
    username
    password
    permanentDelete := permanentDelete.getD default.permanentDelete }

/-! ### Files -/

/-- A file that cannot be read, for a reason. -/
def unreadable (reason : String) : ConfigError :=
  .parse ("读取配置文件失败: " ++ reason)

/-- The configuration in a file; a file that is not there has no
    content. -/
def ofFile (content : Option Bytes) : Except ConfigError Config :=
  match content with
  | none => .error (unreadable "No such file or directory (os error 2)")
  | some bytes =>
    match bytes.toText? with
    | none => .error (unreadable "stream did not contain valid UTF-8")
    | some text =>
      match Toml.read? text with
      | none => .error .malformed
      | some t => ofTable t

end EventCodec.Config
