import Assay.Snapshot.Basic
import Assay.Status

/-! # Standard classes

The classes that every heap knows: those of plain data and containers, the exceptions, and the
classes of what this library itself makes.
-/

namespace Assay.Standard

/-- A container or a kind of plain data. -/
def data (name : ClassName) (ancestors : List ClassName := []) (home : String := "builtins") :
    ClassName × ClassInfo :=
  (name, { home, qualified := home != "builtins", ancestors := ancestors ++ ["object"] })

def dataClasses : List (ClassName × ClassInfo) := [
  ("object", { ancestors := [] }),
  data "type", data "NoneType", data "int", data "bool" ["int"], data "float", data "complex",
  data "str", data "bytes", data "bytearray", data "list", data "tuple", data "dict", data "set",
  data "frozenset", data "range", data "mappingproxy", data "builtin_function_or_method",
  data "deque" [] "collections", data "defaultdict" ["dict"] "collections",
  ("OrderedDict", { home := "collections", qualified := true, ancestors := ["dict", "object"],
                    hasAttributes := true }),
  data "date" [] "datetime", data "datetime" ["date"] "datetime", data "timedelta" [] "datetime",
  data "time" [] "datetime", data "Pattern" [] "re",
  ("EnumType", { home := "enum", ancestors := ["type", "object"] }),
  ("Enum", { home := "enum" }),
  ("ReprEnum", { home := "enum", ancestors := ["Enum", "object"] }),
  ("IntEnum", { home := "enum", ancestors := ["int", "ReprEnum", "Enum", "object"] })
]

/-- Exceptions by their nearest superclass, which comes earlier in the list. -/
def errorParents : List (ClassName × ClassName) := [
  ("Exception", "BaseException"), ("KeyboardInterrupt", "BaseException"),
  ("SystemExit", "BaseException"), ("GeneratorExit", "BaseException"),
  ("ArithmeticError", "Exception"), ("AssertionError", "Exception"),
  ("AttributeError", "Exception"), ("BufferError", "Exception"), ("EOFError", "Exception"),
  ("ImportError", "Exception"), ("LookupError", "Exception"), ("MemoryError", "Exception"),
  ("NameError", "Exception"), ("OSError", "Exception"), ("ReferenceError", "Exception"),
  ("RuntimeError", "Exception"), ("StopAsyncIteration", "Exception"),
  ("StopIteration", "Exception"), ("SyntaxError", "Exception"), ("SystemError", "Exception"),
  ("TypeError", "Exception"), ("ValueError", "Exception"), ("Warning", "Exception"),
  ("FloatingPointError", "ArithmeticError"), ("OverflowError", "ArithmeticError"),
  ("ZeroDivisionError", "ArithmeticError"), ("ModuleNotFoundError", "ImportError"),
  ("IndexError", "LookupError"), ("KeyError", "LookupError"),
  ("UnboundLocalError", "NameError"), ("BlockingIOError", "OSError"),
  ("ConnectionError", "OSError"), ("FileExistsError", "OSError"),
  ("FileNotFoundError", "OSError"), ("InterruptedError", "OSError"),
  ("IsADirectoryError", "OSError"), ("NotADirectoryError", "OSError"),
  ("PermissionError", "OSError"), ("TimeoutError", "OSError"),
  ("NotImplementedError", "RuntimeError"), ("RecursionError", "RuntimeError"),
  ("UnicodeError", "ValueError"), ("UserWarning", "Warning"),
  ("DeprecationWarning", "Warning")
]

def errorInfo (home : String) (ancestors : List ClassName) : ClassInfo :=
  { home, ancestors, hasAttributes := true }

/-- Lineages of the exceptions, each built on that of its parent. -/
def errorClasses : List (ClassName × ClassInfo) :=
  errorParents.foldl
    (fun known (name, parent) =>
      let above := match known.find? (·.1 == parent) with
        | some (_, info) => info.ancestors
        | none => ["object"]
      known ++ [(name, errorInfo "builtins" (parent :: above))])
    [("BaseException", errorInfo "builtins" ["object"])]

/-- A mapping entry describes itself by its key and its value. -/
def describeEntry (objects : Objects) (a : Address) : Except Fault Description :=
  let o := objects[a]?.getD .blank
  let read (name : String) : Except Fault Value :=
    match o.own? name with
    | some v => .ok v
    | none => .error (.noAttribute o.cls name)
  do
    let key ← read "key"
    let value ← read "value"
    return .fields [(.text "key", key), (.text "value", value)]

/-- The fields of a snapshot node that is used as a value. -/
def nodeFields : List String :=
  ["label", "declared_type", "is_leaf", "identity", "already_referenced", "value", "children",
    "_anchor"]

/-- The class of snapshot nodes that are used as values. -/
def nodeClass : ClassName := "Snapshot"

/-- The class of operations that are used as values. -/
def operationClass : ClassName := "OperationKind"

/-- An operation as a member of its enumeration. -/
def operationMember (o : Operation) : Member :=
  { cls := operationClass, name := o.constant, payload := .text o.name, transparent := true }

def clauseAborted : ClassName := "ClauseAborted"
def clauseMisused : ClassName := "ClauseUsageError"
def duplicateTest : ClassName := "DuplicateTestError"

def ownClasses : List (ClassName × ClassInfo) :=
  let models := "facet.snapshot.models"
  let errors := "facet.errors"
  let base := ["FacetError", "Exception", "BaseException", "object"]
  [ (entryClass,
      { home := models, hasAttributes := true, source := .described describeEntry
        equality := .fieldwise ["key", "value"], hashing := .fieldwise ["key", "value"]
        text := .record ["key", "value"] }),
    (nodeClass,
      { home := models, hasAttributes := true, source := .record nodeFields
        text := .record nodeFields.dropLast }),
    (differenceClass,
      { home := models, hasAttributes := true, source := .record ["expected", "actual"]
        equality := .fieldwise ["expected", "actual"], hashing := .fieldwise ["expected", "actual"]
        text := .record ["expected", "actual"] }),
    (operationClass,
      { home := "facet.clause.models", ancestors := ["str", "Enum", "object"]
        members := Operation.all.map fun o => (o.constant, operationMember o) }),
    ("FacetError", errorInfo errors base.tail),
    (clauseAborted, errorInfo errors base),
    (clauseMisused, errorInfo errors base),
    (duplicateTest, errorInfo errors base) ]

/-- Every standard class under its name. -/
def table : List (ClassName × ClassInfo) := dataClasses ++ errorClasses ++ ownClasses

/-- What is known of a class that nobody declared. -/
def unknown : ClassInfo := {}

/-- Standard classes together with those of a program. -/
def classes (declared : List (ClassName × ClassInfo)) (name : ClassName) : ClassInfo :=
  ((declared.find? (·.1 == name)).or (table.find? (·.1 == name))).elim unknown (·.2)

end Assay.Standard
