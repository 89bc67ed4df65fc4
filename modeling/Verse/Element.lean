import Verse.Numeric.Rounding

/-!
# The five elements and the four relations between them

Each relation is a cycle through the five elements, and the four cycles lead from an element
to its four fellows: of two distinct elements exactly one relation leads from the first to
the second.  The element `void` stands outside every cycle.

* `Relation.successor`    the next element of a cycle
* `Relation.follows`      whether one element is the next after another
* `Relation.between`      the relation that leads from one element to another
-/

namespace Verse

/-- What a word is made of.  `void` marks the lack of an element. -/
inductive Element where
  | void | earth | metal | water | wood | fire
deriving DecidableEq, Inhabited

/-- The ways in which one element leads to another. -/
inductive Relation where
  | create | destroy | fear | love
deriving DecidableEq

namespace Element

/-- Every element, the void first. -/
def all : List Element := [.void, .earth, .metal, .water, .wood, .fire]

/-- The elements that take part in the relations, in the order of `Relation.create`. -/
def cycle : List Element := [.earth, .metal, .water, .wood, .fire]

/-- The name of an element as it is written in dictionaries and shown in tables. -/
def name : Element → String
  | .void => "none"
  | .earth => "earth"
  | .metal => "metal"
  | .water => "water"
  | .wood => "wood"
  | .fire => "fire"

/-- The element of a name. -/
def ofName? (name : String) : Option Element :=
  all.find? (·.name == name)

end Element

namespace Relation

/-- Every relation, in the order in which `between` tries them. -/
def all : List Relation := [.create, .destroy, .fear, .love]

/-- The name of a relation. -/
def name : Relation → String
  | .create => "Create"
  | .destroy => "Destroy"
  | .fear => "Fear"
  | .love => "Love"

/-- The elements in the order of a relation; the last leads back to the first. -/
def cycle : Relation → List Element
  | .create => [.earth, .metal, .water, .wood, .fire]
  | .destroy => [.earth, .water, .fire, .metal, .wood]
  | .fear => [.earth, .wood, .metal, .fire, .water]
  | .love => [.earth, .fire, .wood, .water, .metal]

/-- The element after another one in the relation's cycle.  The void leads only to
    itself. -/
def successor (relation : Relation) (element : Element) : Element :=
  ((relation.cycle.zip (relation.cycle.rotateLeft 1)).lookup element).getD .void

/-- Whether `later` comes right after `earlier` in the relation's cycle. -/
def follows (relation : Relation) (earlier later : Element) : Bool :=
  relation.cycle.contains earlier && relation.successor earlier == later

/-- The relation that leads from one element to another, if one does. -/
def between (earlier later : Element) : Option Relation :=
  all.find? fun relation => relation.follows earlier later

end Relation

/-- Move one step along a relation. -/
def Element.advance (element : Element) (relation : Relation) : Element :=
  relation.successor element

/-- Odd and even, as far as the elements are concerned. -/
inductive Polarity where
  | yin | yang
deriving DecidableEq

namespace Polarity

/-- A value is yang when it is odd after rounding away from zero. -/
def of (v : Float) : Polarity :=
  if Numeric.isOdd v then .yang else .yin

/-- The number that stands for a polarity. -/
def value : Polarity → Float
  | .yin => 0.0
  | .yang => 1.0

/-- The name of a polarity. -/
def name : Polarity → String
  | .yin => "yin"
  | .yang => "yang"

/-- Two polarities together are yang only when both are. -/
def both : Polarity → Polarity → Polarity
  | .yang, .yang => .yang
  | _, _ => .yin

end Polarity

end Verse
