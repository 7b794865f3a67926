import EventCodec.Text.Decimal

/-! # Configuration

    How a registry is reached: its address, how long to wait for it, who
    asks, and whether a deleted subject is gone for good. -/

namespace EventCodec

/-! ### Errors -/

inductive ConfigError where
  | io (reason : String)
  /-- A file that cannot be read. -/
  | parse (reason : String)
  /-- A file that is no document, or has a setting of the wrong type. -/
  | malformed
  /-- A configuration that cannot be used. -/
  | validation (reason : String)
  /-- An environment variable that does not make sense. -/
  | environment (reason : String)
deriving DecidableEq, Repr

namespace ConfigError

def message : ConfigError → String
  | .io reason => "IO 错误: " ++ reason
  | .parse reason => "解析配置文件失败: " ++ reason
  | .malformed => "解析配置文件失败: 文件内容无效"
  | .validation reason => "配置验证失败: " ++ reason
  | .environment reason => "环境变量解析失败: " ++ reason

end ConfigError

/-! ### Configuration -/

structure Config where
  /-- The address of the registry. -/
  url : String
  /-- How long to wait for an answer, in milliseconds. -/
  timeoutMs : UInt64
  username : Option String
  password : Option String
  /-- Whether deleting a subject is followed by deleting it for good. -/
  permanentDelete : Bool
deriving DecidableEq, Repr

namespace Config

def default : Config where
  url := "http://localhost:8081"
  timeoutMs := 10000
  username := none
  password := none
  permanentDelete := true

def ofUrl (url : String) : Config :=
  { default with url }

def withBasicAuth (c : Config) (username password : String) : Config :=
  { c with username := some username, password := some password }

/-- A timeout in seconds and nanoseconds, cut to whole milliseconds: at
    least one, at most what fits. -/
def withTimeout (c : Config) (seconds nanoseconds : Nat) : Config :=
  let ms := seconds * 1000 + nanoseconds / 1000000
  { c with timeoutMs := UInt64.ofNat (max 1 (min ms (UInt64.size - 1))) }

/-- The timeout in seconds and nanoseconds. -/
def timeout (c : Config) : Nat × Nat :=
  (c.timeoutMs.toNat / 1000, c.timeoutMs.toNat % 1000 * 1000000)

/-! ### Validation -/

def schemes : List String := ["http://", "https://"]

/-- Whether the configuration can be used; the first reason why not. -/
def validate (c : Config) : Except ConfigError Unit :=
  if c.url.isEmpty then .error (.validation "Registry 地址不能为空")
  else if !schemes.any fun s => s.toList.isPrefixOf c.url.toList then
    .error (.validation ("Registry 地址必须以 http:// 或 https:// 开头: " ++ c.url))
  else if c.timeoutMs = 0 then .error (.validation "请求超时不能为 0")
  else if c.password.isSome && c.username.isNone then
    .error (.validation "设置了密码但缺少用户名")
  else .ok ()

/-! ### Views -/

/-- The address without the slashes at its end. -/
def baseUrl (c : Config) : String :=
  String.ofList ((c.url.toList.reverse.dropWhile (· == '/')).reverse)

/-- What may be shown of the configuration: everything but the
    password. -/
def summary (c : Config) : String :=
  "regcodec Registry 配置:\n  地址: " ++ c.baseUrl ++
    "\n  超时: " ++ toString c.timeoutMs.toNat ++
    "ms\n  认证用户: " ++ c.username.getD "<无>" ++
    "\n  永久删除: " ++ (if c.permanentDelete then "true" else "false")

end Config

end EventCodec
