import Assay.Heap.Fields

/-! # Listing the fields of any value

Leaves are compared as a whole, but they too can be asked for their fields. A listing gives names
and the classes of what is found under them.
-/

namespace Assay

/-- Names in order, each with the class of what it stands for. -/
abbrev Listing := List (Value × ClassName)

namespace Listing

def ofNames (cls : ClassName) (names : List String) : Listing :=
  names.map fun name => (.text name, cls)

/-- What the class of integers holds. -/
def integerClass : Listing :=
  ofNames "builtin_function_or_method" ["__new__"] ++
  ofNames "wrapper_descriptor"
    ["__repr__", "__hash__", "__getattribute__", "__lt__", "__le__", "__eq__", "__ne__", "__gt__",
      "__ge__", "__add__", "__radd__", "__sub__", "__rsub__", "__mul__", "__rmul__", "__mod__",
      "__rmod__", "__divmod__", "__rdivmod__", "__pow__", "__rpow__", "__neg__", "__pos__",
      "__abs__", "__bool__", "__invert__", "__lshift__", "__rlshift__", "__rshift__",
      "__rrshift__", "__and__", "__rand__", "__xor__", "__rxor__", "__or__", "__ror__", "__int__",
      "__float__", "__floordiv__", "__rfloordiv__", "__truediv__", "__rtruediv__", "__index__"] ++
  ofNames "method_descriptor" ["conjugate", "bit_length", "bit_count", "to_bytes"] ++
  ofNames "classmethod_descriptor" ["from_bytes"] ++
  ofNames "method_descriptor"
    ["as_integer_ratio", "__trunc__", "__floor__", "__ceil__", "__round__", "__getnewargs__",
      "__format__", "__sizeof__"] ++
  ofNames "getset_descriptor" ["real", "imag", "numerator", "denominator"] ++
  ofNames "str" ["__doc__"]

/-- What a class of records holds, its defaults apart. -/
def recordClass (hashable : Bool) : Listing :=
  ofNames "str" ["__module__"] ++ ofNames "dict" ["__annotations__"] ++
  ofNames "getset_descriptor" ["__dict__", "__weakref__"] ++ ofNames "str" ["__doc__"] ++
  ofNames "_DataclassParams" ["__dataclass_params__"] ++ ofNames "dict" ["__dataclass_fields__"] ++
  ofNames "function" ["__init__", "__repr__", "__eq__"] ++
  ofNames (if hashable then "function" else "NoneType") ["__hash__"] ++
  ofNames "tuple" ["__match_args__"]

end Listing

namespace Heap

def listed (h : Heap) (entries : List (Key × Value)) : Listing :=
  entries.map fun (name, v) => (name.value, h.typeOf v)

/-- What a class holds, as far as it is known. -/
def classListing (h : Heap) (c : ClassName) : Listing :=
  if c == "int" then Listing.integerClass
  else match (h.classes c).source with
    | .record _ => Listing.recordClass ((h.classes c).hashing matches .fieldwise _)
    | _ => []

/-- The fields of a value. -/
def listFields (h : Heap) (v : Value) : Except Fault Listing :=
  match v with
  | .member m =>
    .ok [(.text "_value_", match m.payload with | .number _ => "int" | .text _ => "str"),
      (.text "_name_", "str"), (.text "__objclass__", "EnumType"), (.text "_sort_order_", "int")]
  | .cls c => .ok (h.classListing c)
  | .ref a =>
    match (h.object a).body with
    | .plain | .error _ => (h.fields a).map h.listed
    | .mapping .frozen _ => .ok ((.text "data", "dict") :: h.listed (named (h.object a).attrs))
    | _ => .ok (h.listed (named (h.object a).attrs))
  | _ => .ok []

/-- What a value shares with all of its class. -/
def listShared (h : Heap) (v : Value) : Except Fault Listing :=
  match v with
  | .member m =>
    .ok ((h.classes m.cls).members.map fun (name, other) => (.text name, other.cls))
  | .date _ =>
    .ok (Listing.ofNames "date" ["min", "max"] ++ Listing.ofNames "timedelta" ["resolution"])
  | .moment _ =>
    .ok (Listing.ofNames "datetime" ["min", "max"] ++ Listing.ofNames "timedelta" ["resolution"])
  | .duration _ => .ok (Listing.ofNames "timedelta" ["resolution", "min", "max"])
  | .ref a =>
    match (h.object a).body with
    | .plain | .error _ => (h.sharedFields a).map h.listed
    | _ => .ok []
  | _ => .ok []

end Heap

end Assay
