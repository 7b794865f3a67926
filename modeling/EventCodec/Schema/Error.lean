import EventCodec.Error
import EventCodec.Text.Quoted

/-! # Schema errors

    What can be wrong with a declared type, with schema text, or with two
    schemas that ought to fit together. -/

namespace EventCodec.Schema

inductive SchemaError where
  /-- A message or field name that is no identifier. -/
  | invalidName (name : String)
  | duplicateNumber (number : UInt32)
  | duplicateName (name : String)
  | numberOutOfRange (number : UInt32)
  | reservedNumber (number : UInt32)
  /-- A kind that a schema of one message cannot express. -/
  | unsupportedField (field kind : String)
  /-- Schema text that cannot be read. -/
  | parse (reason : String)
  /-- Writer and reader disagree on a field. -/
  | incompatible (reason : String)
deriving DecidableEq, Repr

namespace SchemaError

def message : SchemaError → String
  | .invalidName name => "非法标识符: " ++ Text.quoted name
  | .duplicateNumber number => "字段编号重复: " ++ toString number.toNat
  | .duplicateName name => "字段名重复: " ++ name
  | .numberOutOfRange number => "字段编号超出范围: " ++ toString number.toNat
  | .reservedNumber number => "字段编号位于保留区间: " ++ toString number.toNat
  | .unsupportedField field kind => "字段 " ++ field ++ " 的类型 " ++ kind ++ " 不受支持"
  | .parse reason => "schema 解析失败: " ++ reason
  | .incompatible reason => "schema 不兼容: " ++ reason

/-- The error of binding a codec to the named type. -/
def toUnsupported (e : SchemaError) (typeName : String) : CodecError :=
  .unsupportedType typeName e.message

/-- The error of decoding with a schema that does not serve. -/
def toDecode (e : SchemaError) : CodecError :=
  .decode e.message

end SchemaError

end EventCodec.Schema
