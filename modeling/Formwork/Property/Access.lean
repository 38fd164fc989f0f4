import Formwork.Conversion.Registry
import Formwork.Property.Path
import Formwork.Property.Value

/-!
# Going into a value

A step of a path goes from a value to one of its children. Reading (`Value.child?`) changes
nothing. Writing creates what is missing: options are filled (`Value.filled`), and then a child is
chosen (`Value.select`), for which a sequence grows and a map gets a new entry.

A property of a bean is reached through its accessors (`Accessor`): `Descriptor.child?` and
`Descriptor.snapshot` take the getter and `Descriptor.select` takes the setter, whatever a bean is
made of. Among the values, a bean is made of fields (`Value.fieldAccessor`).
-/

namespace Formwork

/-- Why a value has no such child, or takes no text. -/
inductive PropertyError where
  | unknownProperty (name type : String)
  | notNavigable (segment type : String)
  | invalidIndex (key type : String)
  | indexLimit (index limit : Nat)
  /-- A type without an initial value. -/
  | uninstantiable (type : String)
  | notAssignable (type : String)
  | converter (e : ConverterError)

namespace PropertyError

/-- The text of the error. -/
def message : PropertyError → String
  | unknownProperty name type => "no property '" ++ name ++ "' on " ++ type
  | notNavigable segment type => type ++ " has no nested property '" ++ segment ++ "'"
  | invalidIndex key type => "'" ++ key ++ "' is not a valid index into " ++ type
  | indexLimit index limit =>
    "index " ++ toString index ++ " exceeds the configured limit of " ++ toString limit
  | uninstantiable type => "cannot instantiate " ++ type ++ ": no default value available"
  | notAssignable type => type ++ " cannot be assigned from request values"
  | converter e => e.message

end PropertyError

/-- What binding works with. -/
structure BindContext where
  converters : ConverterRegistry
  locale : Locale
  /-- The greatest index that a sequence grows to. -/
  maxIndex : Nat := 10000
  /-- The initial value of a bean type, if it has one. -/
  freshBean : BeanId → Option Value

namespace BindContext

/-- The initial value of a type; an option is absent, a sequence or a map empty. -/
def initial? (cx : BindContext) : Schema → Option Value
  | .scalar t => t.initial?.map .scalar
  | .option inner => some (.absent inner)
  | .box inner => (cx.initial? inner).map .boxed
  | .sequence element => some (.sequence element [])
  | .map kind element => some (.map kind element [])
  | .bean id => cx.freshBean id

/-- The initial value of a type with the options in front of it filled. -/
def filled? (cx : BindContext) : Schema → Option Value
  | .option inner => some (((cx.filled? inner).map .present).getD (.absent inner))
  | .box inner => (cx.filled? inner).map .boxed
  | s => cx.initial? s

end BindContext

/-- A value inside of something, and the latter with another value in its place. -/
structure Focus (β : Type) where
  child : Value
  put : Value → β

/-- The focus seen from around it. -/
def Focus.map {β γ : Type} (f : β → γ) (s : Focus β) : Focus γ := ⟨s.child, f ∘ s.put⟩

/-- The two ways to a property of a bean, if the bean has it. -/
structure Accessor (β : Type) where
  /-- To its value. -/
  getter : β → Option Value
  /-- To its place, for a change. -/
  setter : β → Option (Focus β)

namespace Descriptor

variable {α β : Type}

/-- The child of a bean for a step of a path, which `acc` takes from the accessors. -/
def child? (d : Descriptor α) (acc : α → Accessor β) (bean : β) (segment : Segment) :
    Option Value :=
  (d.accessor? segment.key).bind fun a => (acc a).getter bean

/-- Chooses the property of a bean that a step of a path names. -/
def select (d : Descriptor α) (acc : α → Accessor β) (bean : β) (segment : Segment) :
    Except PropertyError (Focus β) :=
  match (d.accessor? segment.key).bind fun a => (acc a).setter bean with
  | some focus => .ok focus
  | none => .error (.unknownProperty segment.key d.typeName)

/-- A bean as JSON: the object of its properties. -/
def snapshot (d : Descriptor α) (acc : α → Accessor β) (bean : β) : Json :=
  .object (d.shown fun a => ((acc a).getter bean).map Value.snapshot)

end Descriptor

namespace Value

/-- The value with absent options filled, as far as their types have initial values. -/
def filled (cx : BindContext) : Value → Value
  | absent inner => ((cx.filled? inner).map present).getD (absent inner)
  | present v => present (v.filled cx)
  | boxed v => boxed (v.filled cx)
  | v => v

/-- A child of a value, and the value with another child in its place. -/
abbrev Selection := Focus Value

/-- The selection seen from a value around it. -/
def Selection.inside (f : Value → Value) (s : Selection) : Selection := s.map f

/-- The entry of a key. -/
def keyed? (key : MapKey) : List (MapKey × Value) → Option Value
  | [] => none
  | (k, v) :: rest => if k = key then some v else keyed? key rest

/-- Replaces the entry of a key, or puts it where the key belongs. -/
def putEntry (key : MapKey) (v : Value) : List (MapKey × Value) → List (MapKey × Value)
  | [] => [(key, v)]
  | (k, w) :: rest =>
    if key.before k then (key, v) :: (k, w) :: rest
    else if k = key then (key, v) :: rest
    else (k, w) :: putEntry key v rest

/-- The value of a field. -/
def field? (name : String) : List (String × Value) → Option Value
  | [] => none
  | (n, v) :: rest => if n = name then some v else field? name rest

/-- Replaces the value of a field. -/
def putField (name : String) (v : Value) : List (String × Value) → List (String × Value)
  | [] => []
  | (n, w) :: rest => if n = name then (n, v) :: rest else (n, w) :: putField name v rest

/-- The accessors of a field. -/
def fieldAccessor (name : String) : Accessor (List (String × Value)) where
  getter fields := field? name fields
  setter fields := (field? name fields).map fun child => ⟨child, (putField name · fields)⟩

/-- The number that is an index into a sequence. -/
def index? (key : String) : Option Nat := (Numeric.readInteger .size key.toList).map Int.toNat

/-- The elements of a sequence, with initial values behind them up to a length. -/
def grown (fresh : Value) (length : Nat) (items : List Value) : List Value :=
  items ++ List.replicate (length - items.length) fresh

/-- Chooses an element of a sequence. -/
def selectItem (cx : BindContext) (element : Schema) (items : List Value) (segment : Segment) :
    Except PropertyError Selection :=
  let type := (Schema.sequence element).name
  match segment with
  | .property _ => .error (.notNavigable segment.text type)
  | .index key =>
    match index? key with
    | none => .error (.invalidIndex key type)
    | some i =>
      if cx.maxIndex < i then .error (.indexLimit i cx.maxIndex)
      else
        match items[i]?, cx.initial? element with
        | some child, _ => .ok ⟨child, fun v => sequence element (items.set i v)⟩
        | none, some fresh =>
          .ok ⟨fresh, fun v => sequence element ((grown fresh (i + 1) items).set i v)⟩
        | none, none => .error (.uninstantiable element.name)

/-- Chooses an entry of a map. -/
def selectEntry (cx : BindContext) (kind : MapKind) (element : Schema)
    (entries : List (MapKey × Value)) (segment : Segment) : Except PropertyError Selection :=
  match MapKey.read? kind.key segment.key with
  | none => .error (.invalidIndex segment.key (Schema.map kind element).name)
  | some key =>
    match (keyed? key entries).or (cx.initial? element) with
    | some child => .ok ⟨child, fun v => map kind element (putEntry key v entries)⟩
    | none => .error (.uninstantiable element.name)

/-- Chooses a property of a bean. -/
def selectProperty (d : BeanDescriptor) (fields : List (String × Value)) (segment : Segment) :
    Except PropertyError Selection :=
  (d.select fieldAccessor fields segment).map (Focus.map (bean d))

theorem selectProperty_def (d : BeanDescriptor) (fields : List (String × Value))
    (segment : Segment) : selectProperty d fields segment =
      match d.field? segment.key with
      | none => .error (.unknownProperty segment.key d.typeName)
      | some name =>
        match field? name fields with
        | some child => .ok ⟨child, fun v => bean d (putField name v fields)⟩
        | none => .error (.unknownProperty segment.key d.typeName) := by
  unfold selectProperty Descriptor.select BeanDescriptor.field?
  cases d.accessor? segment.key with
  | none => rfl
  | some name =>
    simp only [Option.bind_some, fieldAccessor]
    cases field? name fields <;> rfl

/-- Chooses the child of a step of a path. -/
def select (cx : BindContext) (segment : Segment) : Value → Except PropertyError Selection
  | scalar s => .error (.notNavigable segment.text s.type.name)
  | absent inner => .error (.uninstantiable inner.name)
  | present v => (v.select cx segment).map (Selection.inside present)
  | boxed v => (v.select cx segment).map (Selection.inside boxed)
  | sequence element items => selectItem cx element items segment
  | map kind element entries => selectEntry cx kind element entries segment
  | bean d fields => selectProperty d fields segment

/-- The child of a step of a path, if it is there. -/
def child? (segment : Segment) : Value → Option Value
  | scalar _ | absent _ => none
  | present v | boxed v => v.child? segment
  | sequence _ items =>
    match segment with
    | .property _ => none
    | .index key => (index? key).bind (items[·]?)
  | map kind _ entries => (MapKey.read? kind.key segment.key).bind (keyed? · entries)
  | bean d fields => d.child? fieldAccessor fields segment

theorem child?_bean (d : BeanDescriptor) (fields : List (String × Value)) (segment : Segment) :
    (bean d fields).child? segment = (d.field? segment.key).bind (field? · fields) := rfl

end Value

end Formwork
