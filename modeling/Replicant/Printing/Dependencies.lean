import Replicant.Lib.OrderedMap
import Replicant.Lib.Transaction

/-!
# Print dependencies

`plan_print_dependencies` expands the components of the requested devices. Each requirement takes what
is in stock first; what is missing is printed in a wave after those of its own components. Quantities
are integers. The descent has fuel for every blueprint of the catalogue; the error `none` stands for
a descent that has used it up.
-/

namespace Replicant.Printing

open Lib Std

abbrev QuantityMap := ExtTreeMap String ℤ

structure Blueprint where
  components : QuantityMap

abbrev Catalogue := ExtTreeMap String Blueprint

structure PrintRequest where
  deviceType : String
  quantity : ℤ
deriving DecidableEq

structure PrintDependencyPlan where
  requested : QuantityMap
  componentWaves : List QuantityMap
  reusedComponents : QuantityMap

inductive ScheduleError where
  | invalidQuantity (deviceType : String) (quantity : ℤ)
  | missingBlueprint (deviceType : String)
  | missingComponentBlueprint (deviceType : String) (missing : ℤ)
  | componentCycle (deviceType : String)
deriving DecidableEq

/-- `*quantities.entry(key).or_default() += quantity` -/
def addQuantity (quantities : QuantityMap) (key : String) (quantity : ℤ) : QuantityMap :=
  quantities.alter key fun old => some (old.getD 0 + quantity)

def normalizeRequests (requests : List PrintRequest) : Except ScheduleError QuantityMap :=
  requests.foldlM (fun quantities request =>
    if request.quantity ≤ 0 then .error (.invalidQuantity request.deviceType request.quantity)
    else .ok (addQuantity quantities request.deviceType request.quantity)) ∅

/-- What the descent reads and writes. -/
structure Expansion where
  available : QuantityMap
  reused : QuantityMap
  waves : ExtTreeMap ℕ QuantityMap

namespace Expansion

variable (s : Expansion)

/-- Stock is reserved; `available` is what there was of it. -/
def reuse (deviceType : String) (available quantity : ℤ) : Expansion :=
  { s with
    available := s.available.insert deviceType (available - quantity)
    reused := addQuantity s.reused deviceType quantity }

def print (depth : ℕ) (deviceType : String) (missing : ℤ) : Expansion :=
  { s with
    waves := s.waves.alter depth fun wave =>
      some (addQuantity (wave.getD ∅) deviceType missing) }

end Expansion

abbrev Descent := Tx Expansion (Option ScheduleError)

/-- The components of one device, each as often as the device is printed; the result is the deepest
wave of them. -/
def scheduleComponents (schedule : String → ℤ → Descent ℕ) (quantity : ℤ) (deepest : ℕ) :
    List (String × ℤ) → Descent ℕ
  | [] => pure deepest
  | (component, componentQuantity) :: components => do
    let depth ← schedule component (componentQuantity * quantity)
    scheduleComponents schedule quantity (max deepest depth) components

def scheduleComponentRequirement (blueprints : Catalogue) : ℕ → List String → String → ℤ → Descent ℕ
  | 0, _, _, _ => Tx.fail none
  | fuel + 1, visiting, deviceType, quantity =>
    if quantity ≤ 0 then pure 0
    else if deviceType ∈ visiting then Tx.fail (some (.componentCycle deviceType))
    else do
      let availableQuantity ← Tx.query fun s => max (s.available.getD deviceType 0) 0
      let reusedQuantity := min quantity availableQuantity
      Tx.when (0 < reusedQuantity)
        (Tx.execute (·.reuse deviceType availableQuantity reusedQuantity))
      let missing := quantity - reusedQuantity
      if missing = 0 then pure 0
      else do
        let blueprint ← Tx.require blueprints[deviceType]?
          (some (.missingComponentBlueprint deviceType missing))
        let deepestChild ← scheduleComponents
          (scheduleComponentRequirement blueprints fuel (visiting ++ [deviceType])) missing 0
          blueprint.components.toList
        Tx.execute (·.print (deepestChild + 1) deviceType missing)
        pure (deepestChild + 1)

/-- The components of the requested devices. -/
def scheduleRequests (blueprints : Catalogue) : List (String × ℤ) → Descent Unit
  | [] => pure ()
  | (deviceType, quantity) :: requested => do
    let blueprint ← Tx.require blueprints[deviceType]? (some (.missingBlueprint deviceType))
    let _ ← scheduleComponents
      (scheduleComponentRequirement blueprints (blueprints.size + 1) [deviceType]) quantity 0
      blueprint.components.toList
    scheduleRequests blueprints requested

def planPrintDependencies (requests : List PrintRequest) (blueprints : Catalogue)
    (availableComponents : QuantityMap) : Except (Option ScheduleError) PrintDependencyPlan := do
  let requested ← (normalizeRequests requests).mapError some
  match requested.keys.find? (· ∉ blueprints) with
  | some deviceType => .error (some (.missingBlueprint deviceType))
  | none =>
    let (_, s) ← scheduleRequests blueprints requested.toList ⟨availableComponents, ∅, ∅⟩
    .ok ⟨requested, s.waves.toList.map (·.2), s.reused⟩

/-! ## What a plan is for -/

variable (blueprints : Catalogue) (requested : String → ℤ)

/-- The count of a component in a device; a device without a blueprint has none. -/
def componentCount (deviceType component : String) : ℤ :=
  (blueprints[deviceType]?.map fun blueprint => blueprint.components.getD component 0).getD 0

/-- The components of these devices. -/
def needed (quantities : String → ℤ) (component : String) : ℤ :=
  ∑ deviceType ∈ blueprints.keys.toFinset,
    quantities deviceType * componentCount blueprints deviceType component

/-- How many of a type are requested. -/
def requestedQuantity (requests : List PrintRequest) (deviceType : String) : ℤ :=
  ((requests.filter (·.deviceType = deviceType)).map (·.quantity)).sum

/-- The waves are printed in order: each finds its components in stock or in what earlier waves have
printed, and so do the requested devices in the end. -/
def Executable (blueprints : Catalogue) (requested : String → ℤ) :
    (String → ℤ) → List QuantityMap → Prop
  | stock, [] => ∀ component, needed blueprints requested component ≤ stock component
  | stock, wave :: waves =>
    (∀ component, needed blueprints (wave.getD · 0) component ≤ stock component) ∧
      Executable blueprints requested
        (fun component => stock component - needed blueprints (wave.getD · 0) component +
          wave.getD component 0) waves

/-- What is printed of a type in all waves. -/
def printedQuantity (waves : List QuantityMap) (deviceType : String) : ℤ :=
  (waves.map (·.getD deviceType 0)).sum

/-- The demand for a component when these quantities are printed besides the requested ones. -/
def demand (printed : String → ℤ) (component : String) : ℤ :=
  needed blueprints (fun deviceType => printed deviceType + requested deviceType) component

/-- What is printed is what the stock does not cover. -/
def Covers (stock requested printed : String → ℤ) : Prop :=
  ∀ component, printed component = max 0 (demand blueprints requested printed component - stock component)

/-- There are blueprints for all that is printed. -/
def Unlocked (printed : String → ℤ) : Prop :=
  ∀ deviceType, 0 < printed deviceType ∨ 0 < requested deviceType → deviceType ∈ blueprints

/-- One device is a component of the other. -/
def Uses (deviceType component : String) : Prop :=
  ∃ blueprint, blueprints[deviceType]? = some blueprint ∧ component ∈ blueprint.components

/-- All component counts are positive. -/
def PositiveCounts : Prop :=
  ∀ (deviceType : String) blueprint, blueprints[deviceType]? = some blueprint →
    OrderedMap.Positive blueprint.components

def NonnegativeStock (stock : QuantityMap) : Prop := ∀ deviceType, 0 ≤ stock.getD deviceType 0

end Replicant.Printing
