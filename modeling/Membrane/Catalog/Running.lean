import Membrane.Catalog

/-!
# Running the bodies of a catalog

Each run of a body is recorded before the body does anything. A body that runs one of its arguments
hands on fewer arguments than it got, so that the depth of such runs is bounded by the number of
arguments of the first.
-/

namespace Membrane.Catalog

/-- An integer argument or named value; `nil` or nothing stands for the given one. -/
def integer (absent : Int64) (value : Option HostValue) : HostM Catalog Int64 := do
  match value.getD .nil with
  | .nil => return absent
  | .int n => return n
  | other =>
    throw (.typeError ("expected an integer, got " ++ (← HostM.view).inspectHost other))

/-- A sum, if it fits. -/
def add (a b : Int64) : HostM Catalog Int64 :=
  let sum := a.toInt + b.toInt
  if Int64.minValue.toInt ≤ sum ∧ sum ≤ Int64.maxValue.toInt then return Int64.ofInt sum
  else throw ⟨"RangeError", "overflow"⟩

/-- The object whose state a body can reach. -/
def reach (object : Option HostObject) : HostM Catalog ObjectRecord := do
  match object.bind (← get).state.record? with
  | some r => return r
  | none => throw (.typeError "no state")

/-- The name that an argument stands for: a text itself, an integer in decimal. -/
def fieldName : Option HostValue → String
  | some (.str text) => text
  | some (.int n) => toString n.toInt
  | _ => ""

/-- Runs the first argument on some of the others. -/
def runArgument (run : Runner Catalog) (args : List HostValue) (receiver : Option HostValue)
    (rest : List HostValue) : HostM Catalog HostValue := do
  match args.head?.getD .nil with
  | .callable c => c.invokeWith run receiver rest
  | other => throw (.typeError ("not callable: " ++ (← HostM.view).inspectHost other))

/-- Does what an action says. -/
def perform (run : Runner Catalog) (action : Action HostValue) (object : Option HostObject)
    (receiver : Option HostValue) (args : List HostValue) : HostM Catalog HostValue := do
  match action with
  | .const value => return value
  | .get name => return (← reach object).fields.read name
  | .set name => store name (args.head?.getD .nil) .nil
  | .increment name =>
    let r ← reach object
    let now ← integer 0 (r.fields.lookup name)
    let step ← integer 1 args.head?
    let sum ← add now step
    store name (.int sum) (.int sum)
  | .argument position => return args[position]?.getD .nil
  | .argumentCount => return .int (Int64.ofNat args.length)
  | .self => match receiver with
    | some value => return value
    | none => throw (.typeError "no receiver")
  | .raise error => throw error
  | .getIndex => return (← reach object).fields.read (fieldName args.head?)
  | .setIndex =>
    let value := args[1]?.getD .nil
    store (fieldName args.head?) value value
  | .size => return .int (Int64.ofNat (← reach object).fields.length)
  | .invoke => runArgument run args none (args.drop 1)
  | .invokeOn => runArgument run args (some (args[1]?.getD .nil)) (args.drop 2)
where
  /-- Stores a value under a name and answers with another. -/
  store (name : String) (value answer : HostValue) : HostM Catalog HostValue := do
    let r ← reach object
    HostM.modifyState (·.writeField r.object name value)
    return answer

/-- The object of a value. -/
def objectOf? : Option HostValue → Option HostObject
  | some (.object o) => some o
  | _ => none

/-- Sets up a new object. -/
def setUp (setup : Setup) (object : Option HostObject) (args : List HostValue) :
    HostM Catalog HostValue := do
  if let some error := setup.failure then throw error
  let fields := (setup.parameters.zipIdx).foldl
    (fun fields (name, position) => fields.write name (args[position]?.getD .nil)) setup.fields
  if let some object := object then
    HostM.modifyState fun c => { c with objects := c.objects.push ⟨object, setup.profile, fields⟩ }
  return .nil

/-- Does what a definition says, on what its role lets it reach. -/
def execute (run : Runner Catalog) (d : Definition) (receiver : Option HostValue)
    (args : List HostValue) : HostM Catalog HostValue := do
  match d.role with
  | .function action =>
    record none
    perform run action none none args
  | .stateMethod action =>
    record receiver
    perform run action (objectOf? receiver) none args
  | .method action =>
    record receiver
    perform run action (objectOf? receiver) receiver args
  | .initializer setup =>
    record none
    setUp setup (objectOf? receiver) args
where
  /-- Records the run. -/
  record (shown : Option HostValue) : HostM Catalog Unit :=
    HostM.modifyState fun c => { c with runs := c.runs.push ⟨d.label, shown, args⟩ }

/-- Runs a body, with at most `depth` runs inside each other. -/
def runWithin : Nat → Runner Catalog
  | 0, _, _, _ => return .nil
  | depth + 1, code, receiver, args => do
    match (← get).state.definitions[code.index]? with
    | some d => execute (runWithin depth) d receiver args
    | none => return .nil

instance : Host Catalog where
  run code receiver args := runWithin (args.length + 1) code receiver args

end Membrane.Catalog
