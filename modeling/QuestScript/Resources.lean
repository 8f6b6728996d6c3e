import QuestScript.Quest.TemplateLibrary
import QuestScript.Schema.Directory
import QuestScript.SingleFlight
/-!
The resources of an editor: the schema and the library of templates. Each is loaded when it is
first asked for and kept until both are dropped.
-/

namespace QuestScript

/-- The schema and the templates of a source, as far as they are loaded. -/
structure Resources where
  source : Settings.ConfigSource
  schemas : SingleFlight Schema
  libraries : SingleFlight TemplateLibrary
deriving DecidableEq, Repr

namespace Resources

/-- Resources of which nothing is loaded. -/
def ofSource (source : Settings.ConfigSource) : Resources :=
  ⟨source, SingleFlight.start, SingleFlight.start⟩

/-- What callers are given: a value or why there is none, the names of the files that were read for
it, and the resources after it. -/
structure Given (ε α : Type) where
  result : Except ε α
  reads : List String
  resources : Resources

/-- How a load ends, with the wording of what may fail it. -/
def outcome {ε α : Type} (message : ε → String) : Except ε α → SingleFlight.Outcome α
  | .ok value => .value value
  | .error fault => .failure (message fault)

/-- What callers get from a machine after a load: the value that is kept, or else the result of the
load. -/
def resultOf {ε α : Type} (flight : SingleFlight α) (loaded : Except ε α) : Except ε α :=
  match flight.kept with
  | some value => .ok value
  | none => loaded

/-- The number of loads so far, which tells the value of one load from that of another. -/
def schemaLoads (resources : Resources) : Nat := resources.schemas.loads.length

def libraryLoads (resources : Resources) : Nat := resources.libraries.loads.length

def loadSchema (files : FileSystem) (callers : Nat) (resources : Resources) :
    Given FileSystem.Fault Schema :=
  let loaded := Schema.load files resources.source
  let after :=
    { resources with
      schemas := resources.schemas.serve callers (outcome FileSystem.Fault.message loaded) }
  { result := resultOf after.schemas loaded
    reads := if after.schemaLoads = resources.schemaLoads then [] else Schema.documentNames
    resources := after }

/-- Gives callers the schema for editing, in which no category is empty. -/
def loadEditingSchema (files : FileSystem) (callers : Nat) (resources : Resources) :
    Given FileSystem.Fault Schema :=
  let given := resources.loadSchema files callers
  { given with result := given.result.map Schema.withDefaults }

def loadLibrary (files : FileSystem) (callers : Nat) (resources : Resources) :
    Given TemplateLibrary.Fault TemplateLibrary :=
  let loaded := TemplateLibrary.load files resources.source
  let after :=
    { resources with
      libraries := resources.libraries.serve callers
        (outcome TemplateLibrary.Fault.message loaded) }
  { result := resultOf after.libraries loaded
    reads :=
      if after.libraryLoads = resources.libraryLoads then []
      else ((TemplateLibrary.sourceFiles files resources.source).toOption).getD []
    resources := after }

def invalidate (resources : Resources) : Resources :=
  { resources with
    schemas := resources.schemas.invalidate
    libraries := resources.libraries.invalidate }

end Resources

end QuestScript
