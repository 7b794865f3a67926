import EventCodec.Event.Node
import EventCodec.Event.Raw

/-! # The catalogue of event types

    The event types that sessions work with.  Between them they cover
    every kind and shape, and most ways in which a description and the
    bytes of a type can disagree.

    All of them share one type of values, so that codecs of different
    event types can live side by side. -/

namespace EventCodec

open Schema Wire

/-! ### Values -/

namespace Event

/-- A value of any event type of the catalogue. -/
inductive Value where
  | record (slots : Record)
  | node (node : Node)
  /-- A payload to be written as it is. -/
  | raw (payload : Bytes)
  /-- The keys that were found in a raw payload. -/
  | keys (keys : List Key)
deriving DecidableEq

namespace Value

def toRecord : Value → Record
  | .record slots => slots
  | _ => []

def toNode : Value → Node
  | .node n => n
  | _ => Node.eventType.default

def toPayload : Value → Bytes
  | .raw payload => payload
  | _ => []

end Value

/-- What a type of the catalogue is made of: its layout, if it has one. -/
inductive Shape where
  | record (layout : Layout)
  | node
  | raw
deriving DecidableEq, Repr

/-- An entry of the catalogue. -/
structure Entry where
  shape : Shape
  type : EventType Value

namespace Entry

/-- A type made from a layout. -/
def ofLayout (l : Layout) (validate : Record → Option String) : Entry where
  shape := .record l
  type := (l.eventType validate).via .record Value.toRecord

/-- The same type under a description of its own. -/
def describedAs (e : Entry) (b : Builder) : Entry :=
  { e with type := e.type.describedAs b }

/-- The same type with the message named differently in its description. -/
def describedUnder (e : Entry) (name : String) : Entry :=
  e.describedAs { e.type.describe with name }

end Entry

/-! ### Layouts -/

namespace Layouts

def single (number : UInt32) (name : String) (k : Scalar) : FieldLayout :=
  { number, name, shape := .single k }

def optional (number : UInt32) (name : String) (k : Scalar) : FieldLayout :=
  { number, name, shape := .optional k }

def packed (number : UInt32) (name : String) (k : Scalar) : FieldLayout :=
  { number, name, shape := .repeated k true }

def unpacked (number : UInt32) (name : String) (k : Scalar) : FieldLayout :=
  { number, name, shape := .repeated k false }

def order : Layout :=
  { name := "Order", fields := [single 1 "id" .int64, single 2 "name" .string] }

def orderV2 : Layout :=
  { name := "OrderV2",
    fields := [single 1 "order_id" .int64, single 2 "name" .string, packed 3 "tags" .string] }

def orderV3 : Layout :=
  { name := "OrderV3",
    fields := [single 1 "id" .int64, single 2 "name" .string, single 3 "note" .string] }

def orderBroken : Layout :=
  { name := "OrderBroken", fields := [single 1 "id" .string] }

def orderPlaced : Layout :=
  { name := "OrderPlaced",
    fields := [single 1 "id" .int64, single 2 "name" .string, single 3 "quantity" .uint32] }

def ping : Layout :=
  { name := "Ping", fields := [single 1 "seq" .uint32] }

def empty : Layout :=
  { name := "Empty", fields := [] }

def items : FieldLayout :=
  { number := 1, name := "items", shape := .map .int64 }

def basket : Layout :=
  { name := "Basket", fields := [items, single 2 "owner" .string] }

def mapBasket : Layout :=
  { name := "MapBasket", fields := [items] }

def drifted : Layout :=
  { name := "Drifted", fields := [single 1 "id" .string] }

def samples : Layout :=
  { name := "Samples",
    fields := [packed 1 "values" .sint32, single 2 "scale" .double, single 3 "flags" .fixed32] }

/-- One field for each scalar kind, numbered from one. -/
def ofEveryKind (field : UInt32 → String → Scalar → FieldLayout) : List FieldLayout :=
  Scalar.all.zipIdx.map fun (k, i) => field (UInt32.ofNat (i + 1)) ("f_" ++ k.keyword) k

def allKinds : Layout :=
  { name := "AllKinds", fields := ofEveryKind single }

def repeated : Layout :=
  { name := "Repeated", fields := ofEveryKind packed }

def unpackedKinds : Layout :=
  { name := "Unpacked",
    fields := [unpacked 1 "values" .int32, unpacked 2 "flags" .bool, unpacked 3 "weights" .float] }

def optionals : Layout :=
  { name := "Optionals",
    fields := [optional 1 "n" .int32, optional 2 "s" .string, optional 3 "b" .bool,
      optional 4 "x" .double, optional 5 "raw" .bytes] }

/-- Field numbers around the borders where a key grows by a byte, and the
    largest ones. -/
def sparse : Layout :=
  { name := "Sparse",
    fields := [single 15 "one_byte" .uint32, single 16 "two_bytes" .uint32,
      single 2047 "two_bytes_max" .uint32, single 2048 "three_bytes" .uint32,
      single 18999 "before" .uint32, single 20000 "after" .uint32,
      single 536870911 "last" .uint32] }

end Layouts

/-! ### Complaints -/

/-- The number in a field of 64 bits. -/
def int64Of? (number : UInt32) (r : Record) : Option Int64 :=
  r.findSome? fun s =>
    match s with
    | ⟨⟨n, _, .single .int64⟩, v⟩ => if n = number then some v else none
    | _ => none

/-- The number in an unsigned field of 32 bits. -/
def uint32Of? (number : UInt32) (r : Record) : Option UInt32 :=
  r.findSome? fun s =>
    match s with
    | ⟨⟨n, _, .single .uint32⟩, v⟩ => if n = number then some v else none
    | _ => none

/-- An order's ID is not negative. -/
def validateOrder (r : Record) : Option String :=
  match int64Of? 1 r with
  | some id => if id < 0 then some ("id 不能为负数: " ++ toString id.toInt) else none
  | none => none

/-- Something is ordered. -/
def validateOrderPlaced (r : Record) : Option String :=
  match uint32Of? 3 r with
  | some quantity => if quantity = 0 then some "quantity 必须大于 0" else none
  | none => none

/-! ### Entries -/

/-- A type made from a layout that accepts every value. -/
def plain (l : Layout) : Entry :=
  .ofLayout l fun _ => none

def nodeEntry : Entry where
  shape := .node
  type := Node.eventType.via .node Value.toNode

def rawEntry : Entry where
  shape := .raw
  type :=
    { name := "Raw"
      describe := .new "Raw"
      validate := fun _ => none
      encode := Value.toPayload
      decode := fun bytes => (Raw.keys bytes).map .keys
      default := .raw [] }

def catalogue : List Entry :=
  [.ofLayout Layouts.order validateOrder,
    (plain Layouts.orderV2).describedUnder "Order",
    (plain Layouts.orderV3).describedUnder "Order",
    plain Layouts.orderBroken,
    .ofLayout Layouts.orderPlaced validateOrderPlaced,
    plain Layouts.ping,
    plain Layouts.empty,
    (plain Layouts.basket).describedAs ((Builder.new "Basket").field 2 "owner" (.scalar .string)),
    plain Layouts.mapBasket,
    (plain Layouts.drifted).describedAs ((Builder.new "Drifted").field 1 "id" (.scalar .int64)),
    plain Layouts.samples,
    plain Layouts.allKinds,
    plain Layouts.repeated,
    plain Layouts.unpackedKinds,
    plain Layouts.optionals,
    plain Layouts.sparse,
    nodeEntry,
    rawEntry]

/-- The entry of this name. -/
def find? (name : String) : Option Entry :=
  catalogue.find? fun e => e.type.name == name

end Event

end EventCodec
