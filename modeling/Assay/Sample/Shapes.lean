import Assay.Heap.Standard

/-! # A gallery of declared classes

Classes of a test program, one for each way in which objects can have fields, compare and be
written: enumerations, records, slotted objects, objects that describe themselves, shared
class data, containers of one's own and comparisons of one's own.
-/

namespace Assay.Sample

/-- The module that the classes belong to. -/
def home : String := "shapes"

def enumeration (name : ClassName) (ancestors : List ClassName) (transparent : Bool)
    (members : List (String × String × Payload)) : ClassName × ClassInfo :=
  (name, { home, ancestors,
           members := members.map fun (label, member, payload) =>
             (label, { cls := name, name := member, payload, transparent }) })

def enumerations : List (ClassName × ClassInfo) := [
  enumeration "Color" ["Enum", "object"] false
    [("RED", "RED", .number 1), ("CRIMSON", "RED", .number 1), ("BLUE", "BLUE", .number 2)],
  enumeration "Mode" ["Enum", "object"] false
    [("FAST", "FAST", .text "fast"), ("SLOW", "SLOW", .text "slow")],
  enumeration "Level" ["IntEnum", "int", "ReprEnum", "Enum", "object"] true
    [("LOW", "LOW", .number 1), ("HIGH", "HIGH", .number 2)],
  enumeration "Word" ["str", "Enum", "object"] true
    [("HI", "HI", .text "hi"), ("BYE", "BYE", .text "bye")]
]

/-- A class whose objects compare and are written by their declared fields. -/
def record (name : ClassName) (fields : List String) (hashing : Hashing)
    (attributes : List (String × Attribute) := []) (ancestors : List ClassName := []) :
    ClassName × ClassInfo :=
  (name, { home, ancestors := ancestors ++ ["object"], attributes, hasAttributes := true
           source := .record fields, equality := .fieldwise fields, hashing
           text := .record fields })

def records : List (ClassName × ClassInfo) := [
  record "Point" ["x", "y"] .none,
  record "Point3" ["x", "y", "z"] .none [("z", .data (.int 0))] ["Point"],
  record "FrozenPoint" ["x", "y"] (.fieldwise ["x", "y"]),
  record "Config" ["host", "port"] .none
    [("host", .data (.text "localhost")), ("port", .data (.int 80)), ("version", .data (.int 2))]
]

/-- A class whose objects have whatever attributes are set. -/
def free (name : ClassName) (attributes : List (String × Attribute) := [])
    (ancestors : List ClassName := []) : ClassName × ClassInfo :=
  (name, { home, ancestors := ancestors ++ ["object"], attributes, hasAttributes := true })

/-- A class with slots; its objects have other attributes only where that is said. -/
def slotted (name : ClassName) (slots : List String) (ancestors : List ClassName := [])
    (hasAttributes : Bool := false) : ClassName × ClassInfo :=
  (name, { home, ancestors := ancestors ++ ["object"], slots, hasAttributes })

/-- The address of the list that `Tagged` shares. -/
def limitsAddress : Address := 1

def taggedData : List (String × Attribute) :=
  [("tag", .data (.text "t")), ("kind", .data (.text "tagged")),
    ("limits", .data (.ref limitsAddress))]

def widgetData : List (String × Attribute) :=
  [("kind", .data (.text "widget")), ("limit", .data (.int 10)),
    ("_hidden", .data (.text "skip me"))]

/-- The object's own attribute, which must be there. -/
def requireOwn (objects : Objects) (a : Address) (name : String) : Except Fault Value :=
  let o := objects[a]?.getD .blank
  match o.own? name with
  | some v => .ok v
  | none => .error (.noAttribute o.cls name)

/-- The description that consists of one attribute. -/
def describeOnly (name : String) (objects : Objects) (a : Address) :
    Except Fault (List (Key × Value)) :=
  (requireOwn objects a name).map fun v => [(.text name, v)]

def selfDescribing : List (ClassName × ClassInfo) := [
  ("Temperature",
    { home, hasAttributes := true, attributes := [("unit", .data (.text "C"))]
      source := .described fun objects a =>
        (describeOnly "celsius" objects a).map .fields }),
  ("Pairs",
    { home, hasAttributes := true
      source := .described fun objects a => (requireOwn objects a "pairs").map .value }),
  ("Secret",
    { home, hasAttributes := true
      attributes := [("level", .data (.int 1)), ("private", .data (.int 0))]
      source := .registered (describeOnly "public") }),
  ("SubSecret",
    { home, hasAttributes := true, ancestors := ["Secret", "object"]
      attributes := [("extra", .data (.text "e"))], source := .registered (describeOnly "public") })
]

def ownComparison : List (ClassName × ClassInfo) := [
  ("Grumpy",
    { home, hasAttributes := true, hashing := .none
      equality := .custom fun _ _ _ => .error ⟨"RuntimeError", [.text "no comparing"]⟩ }),
  ("EqAnswer",
    { home, hasAttributes := true, hashing := .none
      equality := .custom fun objects a _ => requireOwn objects a "answer" })
]

def containers : List (ClassName × ClassInfo) := [
  ("MyList", { home, ancestors := ["list", "object"], hasAttributes := true }),
  ("MyDict", { home, ancestors := ["dict", "object"], hasAttributes := true }),
  ("FrozenMap", { home, ancestors := ["Mapping", "Collection", "Sized", "Iterable", "Container",
                                      "object"], hasAttributes := true }),
  ("Pair", { home, ancestors := ["tuple", "object"], text := .record ["first", "second"] })
]

def others : List (ClassName × ClassInfo) := [
  free "Box", free "Node", free "Empty",
  free "Widget" widgetData,
  free "Tagged" taggedData,
  free "Mixed" [("limit", .data (.int 20))] ["Widget", "Tagged"],
  free "Odd" [("describe_fields", .data (.text "not callable"))],
  slotted "Slotted" ["a", "b"],
  slotted "SlotChild" ["c"] ["Slotted"],
  slotted "SlotDict" [] ["Slotted"] true,
  slotted "SlotBoth" ["a", "d"] ["Slotted"] true,
  ("Token", { home, text := .custom fun _ _ => .ok "<Token>" }),
  ("AppError",
    { Standard.errorInfo home ["Exception", "BaseException", "object"] with
      attributes := [("domain", .data (.text "app"))] })
]

/-- Every class of the gallery. -/
def classes : List (ClassName × ClassInfo) :=
  enumerations ++ records ++ selfDescribing ++ ownComparison ++ containers ++ others

/-- A heap that knows the gallery. It holds the tuple without items and the list that `Tagged`
shares. -/
def heap : Heap where
  classes := Standard.classes classes
  objects := #[{ cls := "tuple", body := .sequence .tuple [] },
    { cls := "list", body := .sequence .list [.int 1, .int 2] }]

end Assay.Sample
