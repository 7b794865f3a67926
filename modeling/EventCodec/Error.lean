/-! # Codec errors

    Everything that can go wrong between an event value and its envelope,
    and in the registration and clean-up around it.

    An error is a cause.  Its wording is one function of the cause
    (`CodecError.message`), and a caller that only wants to know what to
    do next asks for the kind (`CodecError.kind`), which looks through any
    context that was attached on the way. -/

namespace EventCodec

/-! ### Context -/

/-- Where an error happened: a named detail or a free remark. -/
inductive ErrorContext where
  | detail (key value : String)
  | remark (text : String)
deriving DecidableEq, Repr

namespace ErrorContext

/-- The subject that was being worked on. -/
def subject (subject : String) : ErrorContext :=
  .detail "subject" subject

/-- The schema an envelope referred to. -/
def schemaId (id : UInt32) : ErrorContext :=
  .detail "schema_id" (toString id.toNat)

def message : ErrorContext → String
  | .detail key value => key ++ ": " ++ value
  | .remark text => text

end ErrorContext

/-! ### Kinds -/

/-- What an error is about, whatever its details and contexts. -/
inductive CodecErrorKind where
  | unsupportedType
  | registration
  | unknownSchema
  | encode
  | decode
  | cleanup
  | closedCodec
  | config
deriving DecidableEq, Repr

namespace CodecErrorKind

/-- The kinds that concern the one call that failed: the codec stays
    usable. -/
def isPerCall : CodecErrorKind → Bool
  | .encode | .decode | .unknownSchema => true
  | _ => false

end CodecErrorKind

/-! ### Errors -/

inductive CodecError where
  /-- The event type has no schema. -/
  | unsupportedType (typeName reason : String)
  /-- The registry did not take the schema. -/
  | registration (subject reason : String)
  /-- An envelope refers to a schema the registry does not have. -/
  | unknownSchema (id : UInt32)
  /-- The value does not fit its schema. -/
  | encode (reason : String)
  /-- The envelope is malformed, or its payload does not fit its schema. -/
  | decode (reason : String)
  /-- The subject could not be deleted. -/
  | cleanup (subject reason : String)
  /-- The codec was used after it had been closed. -/
  | closedCodec
  | config (reason : String)
  /-- An error with a remark about where it happened. -/
  | withContext (cause : CodecError) (context : ErrorContext)
deriving DecidableEq, Repr

namespace CodecError

def kind : CodecError → CodecErrorKind
  | .unsupportedType .. => .unsupportedType
  | .registration .. => .registration
  | .unknownSchema _ => .unknownSchema
  | .encode _ => .encode
  | .decode _ => .decode
  | .cleanup .. => .cleanup
  | .closedCodec => .closedCodec
  | .config _ => .config
  | .withContext cause _ => cause.kind

/-- Whether only the failed call is affected. -/
def isPerCall (e : CodecError) : Bool :=
  e.kind.isPerCall

def message : CodecError → String
  | .unsupportedType typeName reason => "不支持的事件类型 " ++ typeName ++ ": " ++ reason
  | .registration subject reason => "注册主题 " ++ subject ++ " 失败: " ++ reason
  | .unknownSchema id => "未知的 schema ID: " ++ toString id.toNat
  | .encode reason => "编码失败: " ++ reason
  | .decode reason => "解码失败: " ++ reason
  | .cleanup subject reason => "清理主题 " ++ subject ++ " 失败: " ++ reason
  | .closedCodec => "编解码器已关闭"
  | .config reason => "配置错误: " ++ reason
  | .withContext cause context => cause.message ++ " (" ++ context.message ++ ")"

/-- The errors under the contexts, outermost first, the error itself left
    out. -/
def sources : CodecError → List CodecError
  | .withContext cause _ => cause :: cause.sources
  | _ => []

@[simp] theorem kind_withContext (e : CodecError) (c : ErrorContext) :
    (e.withContext c).kind = e.kind := rfl

@[simp] theorem isPerCall_withContext (e : CodecError) (c : ErrorContext) :
    (e.withContext c).isPerCall = e.isPerCall := rfl

/-- Whatever lies under the contexts has the same kind. -/
theorem kind_of_mem_sources {e c : CodecError} (h : c ∈ e.sources) : c.kind = e.kind := by
  induction e with
  | withContext cause _ ih =>
    rcases List.mem_cons.1 h with rfl | h
    · rfl
    · exact ih h
  | _ => simp [sources] at h

end CodecError

end EventCodec
