import EventCodec.Config.Basic

/-! # Overrides from the environment

    Each field of a configuration can be set by a variable of the
    environment.  Variables are applied in a fixed order; the first that
    does not make sense stops. -/

namespace EventCodec.Config

/-- The values of variables; one that is not text counts as not set. -/
abbrev Environment := String → Option String

def urlVariable : String := "REGCODEC_REGISTRY_URL"
def timeoutVariable : String := "REGCODEC_REGISTRY_TIMEOUT_MS"
def usernameVariable : String := "REGCODEC_REGISTRY_USERNAME"
def passwordVariable : String := "REGCODEC_REGISTRY_PASSWORD"
def permanentVariable : String := "REGCODEC_PERMANENT_DELETE"

/-- The two spellings of a truth value. -/
def readBool? (text : String) : Option Bool :=
  if text = "true" then some true
  else if text = "false" then some false
  else none

def overrideTimeout (env : Environment) (c : Config) : Except ConfigError Config :=
  match env timeoutVariable with
  | none => .ok c
  | some text =>
    match Text.readNat? UInt64.size text.toList with
    | some ms => .ok { c with timeoutMs := UInt64.ofNat ms }
    | none => .error (.environment (timeoutVariable ++ " 必须是有效的 u64 数字"))

def overridePermanent (env : Environment) (c : Config) : Except ConfigError Config :=
  match env permanentVariable with
  | none => .ok c
  | some text =>
    match readBool? text with
    | some permanentDelete => .ok { c with permanentDelete }
    | none => .error (.environment (permanentVariable ++ " 必须是 true 或 false"))

/-- The configuration with all overrides applied. -/
def override (env : Environment) (c : Config) : Except ConfigError Config := do
  let c := { c with url := (env urlVariable).getD c.url }
  let c ← overrideTimeout env c
  let c := { c with username := (env usernameVariable).orElse fun _ => c.username }
  let c := { c with password := (env passwordVariable).orElse fun _ => c.password }
  overridePermanent env c

end EventCodec.Config
