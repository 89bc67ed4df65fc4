import Verse.Numeric.Binary
import Verse.Element

/-!
# The twenty commands

A command has a code, which is what a reserved word carries, and a vocabulary of reserved
words that spell it.  `Few` and `Many` do nothing when executed, but have a value when they
are read: a number drawn from their range.
-/

namespace Verse

/-- What a rung can tell the machine to do. -/
inductive Command where
  | few | many | heaven | promote | demote | blossom | rise | fall | listen | speak
  | count | create | destroy | fear | love | become | like | tomorrow | negative | operate
deriving DecidableEq

namespace Command

/-- Every command, in the order of their codes. -/
def all : List Command :=
  [.few, .many, .heaven, .promote, .demote, .blossom, .rise, .fall, .listen, .speak,
   .count, .create, .destroy, .fear, .love, .become, .like, .tomorrow, .negative, .operate]

/-- The code of a command.  Codes count from one. -/
def code : Command → Nat
  | .few => 1
  | .many => 2
  | .heaven => 3
  | .promote => 4
  | .demote => 5
  | .blossom => 6
  | .rise => 7
  | .fall => 8
  | .listen => 9
  | .speak => 10
  | .count => 11
  | .create => 12
  | .destroy => 13
  | .fear => 14
  | .love => 15
  | .become => 16
  | .like => 17
  | .tomorrow => 18
  | .negative => 19
  | .operate => 20

/-- The name of a command. -/
def name : Command → String
  | .few => "Few"
  | .many => "Many"
  | .heaven => "Heaven"
  | .promote => "Promote"
  | .demote => "Demote"
  | .blossom => "Blossom"
  | .rise => "Rise"
  | .fall => "Fall"
  | .listen => "Listen"
  | .speak => "Speak"
  | .count => "Count"
  | .create => "Create"
  | .destroy => "Destroy"
  | .fear => "Fear"
  | .love => "Love"
  | .become => "Become"
  | .like => "Like"
  | .tomorrow => "Tomorrow"
  | .negative => "Negative"
  | .operate => "Operate"

/-- The command of a code, if the number is one. -/
def ofCode? (code : Float) : Option Command :=
  all.find? fun command => Float.ofNat command.code == code

/-- The numbers that a command can be read as, from the first to the second. -/
def range? : Command → Option (Nat × Nat)
  | .few => some (1, 50)
  | .many => some (51, 1000)
  | _ => none

/-- The relation along which a command advances its operand. -/
def relation? : Command → Option Relation
  | .create => some .create
  | .destroy => some .destroy
  | .fear => some .fear
  | .love => some .love
  | _ => none

/-- The reserved words that spell a command. -/
def words : Command → List String
  | .few => ["some", "few"]
  | .many => ["many", "plethora", "myriad"]
  | .heaven =>
    ["heaven", "heavens", "nirvana", "enlightenment", "enlighten", "enlightens",
     "enlightened", "enlightening", "harmony", "harmonies", "harmonious"]
  | .promote =>
    ["promote", "promotes", "promoted", "promoting", "promotion", "promotions", "more",
     "increase", "increases", "increased", "increasing", "wax", "waxes", "waxed", "waxing"]
  | .demote =>
    ["demote", "demotes", "demoted", "demoting", "demotion", "demotions", "less", "lessen",
     "lessens", "lessened", "lessening", "reduce", "reduces", "reduced", "reducing",
     "reduction", "reductions", "wane", "wanes", "waned", "waning"]
  | .blossom =>
    ["blossom", "blossoms", "blossomed", "blossoming", "flower", "flowers", "flowered",
     "flowering", "petal", "petals"]
  | .rise =>
    ["rise", "rises", "rose", "rising", "risen", "float", "floats", "floated", "floating",
     "ascend", "ascends", "ascended", "ascending", "ascension", "ascensions", "up", "upward"]
  | .fall =>
    ["fall", "falls", "fell", "falling", "fallen", "drop", "drops", "dropped", "dropping",
     "descend", "descends", "descended", "descending", "descension", "descensions", "down",
     "downward"]
  | .listen =>
    ["listen", "listens", "listened", "listening", "hear", "hears", "heard", "hearing",
     "see", "sees", "saw", "seeing"]
  | .speak =>
    ["speak", "speaks", "spoke", "speaking", "spoken", "say", "says", "said", "saying",
     "draw", "draws", "drew", "drawing", "drawn"]
  | .count =>
    ["count", "counts", "counted", "counting", "number", "numbers", "numbered", "numbering",
     "age", "ages", "aged", "aging"]
  | .create =>
    ["create", "creates", "created", "creating", "creation", "creations", "produce",
     "produces", "produced", "producing", "production", "productions", "productive", "build",
     "builds", "built", "building"]
  | .destroy =>
    ["destroy", "destroys", "destroyed", "destroying", "destruction", "destructive",
     "damage", "damages", "damaged", "damaging", "kill", "kills", "killed", "killing"]
  | .fear =>
    ["fear", "fears", "feared", "fearing", "fearful", "hate", "hates", "hated", "hating",
     "hatred", "hatreds", "hateful", "doubt", "doubts", "doubted", "doubting", "doubtful"]
  | .love =>
    ["love", "loves", "loved", "loving", "lovely", "desire", "desires", "desired",
     "desiring", "desirous", "regard", "regards", "regarded", "regarding"]
  | .become =>
    ["become", "becomes", "became", "becoming", "reach", "reaches", "reached", "reaching",
     "achieve", "achieves", "achieved", "achieving", "achievement", "achievements"]
  | .like =>
    ["like", "alike", "liken", "likens", "as", "is", "are", "was", "were", "be", "being",
     "been", "resemble", "resembles", "resembled", "resembling"]
  | .tomorrow => ["tomorrow", "today", "yesterday"]
  | .negative =>
    ["negative", "negatives", "negate", "negates", "negated", "negating", "negation",
     "negations", "not", "deny", "denies", "denied", "denying", "denial", "denials"]
  | .operate =>
    ["operate", "operates", "operated", "operating", "operation", "operations", "examine",
     "examines", "examined", "examining", "examination", "examinations", "study", "studies",
     "studied", "studying"]

/-- The command that a word spells, if the word is reserved. -/
def ofWord? (word : String) : Option Command :=
  all.find? (·.words.contains word)

end Command

end Verse
