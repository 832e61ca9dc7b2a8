import Raceway.Request.Document
/-!
# The rulebook that comes with the program

The rules for the requests that are understood without a rulebook of one's own. They are written as
a document and checked in the same way as any other.

## Main definitions

* `Raceway.Rulebook.builtinEntry`: the document.
* `Raceway.Rulebook.builtin`: the checked rulebook.
-/

namespace Raceway.Rulebook

/-- The synonyms. -/
def builtinSynonyms : List (String × String) :=
  [("create", "build"), ("eliminate", "remove"), ("erase", "remove"), ("generate", "build"),
    ("join", "rejoin"), ("jumps", "jump gaps"), ("kill", "remove"), ("regenerate", "rebuild"),
    ("smoothen", "smooth"), ("wiggle", "s-bend")]

/-- The first list of rules. -/
def builtinIntents : List RuleEntry :=
  [⟨"build_grid",
      "\\b(?:re)?build\\b(?:[ \\t]+(?:a|an|the|new|track|grid|course|of|with))*"
        ++ "[ \\t]+(\\d+)(?:[ \\t]*rows?)?(?:[ \\t]*(?:x|by|\\*)[ \\t]*(\\d+)(?:[ \\t]*"
        ++ "(?:cols?|columns?|wide|lanes?))?)?",
      [⟨"set", "/buildAbs/rows", .str "$1:int"⟩, ⟨"set", "/buildAbs/cols", .str "$2:int"⟩],
      []⟩,
    ⟨"seed_value",
      "\\bseed(?:[ \\t]*(?:=|:)|[ \\t]+(?:to|with|of))?[ \\t]*(\\d+)\\b",
      [⟨"set", "/seed/value", .str "$1:int"⟩],
      []⟩]

/-- The second list of rules. -/
def builtinCommands : List RuleEntry :=
  [⟨"delete_rows",
      "\\b(?:remove|delete|drop|cut)[ \\t]+rows?[ \\t]+(\\d+)(?:-(\\d+))?",
      [],
      [⟨"deleteRows", [("a", .str "$1:int"), ("b", .str "$2:int")]⟩]⟩,
    ⟨"delete_tiles",
      "\\b(?:remove|delete|drop|cut)[ \\t]+(?:tiles?|columns?|cols?)[ \\t]+(\\d+(?:"
        ++ "[ \\t]*(?:,|and|-)[ \\t]*\\d+)*)[ \\t]+(?:in|on|of|at|from)[ \\t]+row[ \\t]+"
        ++ "(\\d+)",
      [],
      [⟨"deleteTiles", [("cols", .str "$1:int_list"), ("row", .str "$2:int")]⟩]⟩,
    ⟨"random_holes",
      "\\brandom[ \\t]+holes?(?:[ \\t]+(?:of|at))?[ \\t]+(\\d+(?:\\.\\d+)?)[ \\t]*(?:%|percent)?",
      [],
      [⟨"randomHoles", [("pct", .str "$1:float")]⟩]⟩,
    ⟨"jump_gaps_count_first",
      "\\b(\\d+)[ \\t]+jump[ \\t]*gaps?\\b",
      [],
      [⟨"insertJumpGaps", [("n", .str "$1:int")]⟩]⟩,
    ⟨"jump_gaps_count_after",
      "\\bjump[ \\t]*gaps?[ \\t]+(?:x[ \\t]*)?(\\d+)\\b",
      [],
      [⟨"insertJumpGaps", [("n", .str "$1:int")]⟩]⟩,
    ⟨"curve_direction_first",
      "\\b(?:curve|turn)[ \\t]+(left|right)(?:[ \\t]+by)?[ \\t]+(-?\\d+(?:\\.\\d+)?)"
        ++ "(?:[ \\t]*(?:deg(?:rees?)?|°))?[ \\t]+(?:over|on|for|across|at)[ \\t]+rows"
        ++ "[ \\t]+(\\d+)-(\\d+)",
      [],
      [⟨"curveRows", [("a", .str "$3:int"), ("b", .str "$4:int"), ("deg", .str "$2:float"),
          ("dir", .str "$1")]⟩]⟩,
    ⟨"curve_rows_first",
      "\\b(?:curve|turn)[ \\t]+rows[ \\t]+(\\d+)-(\\d+)[ \\t]+(left|right)(?:"
        ++ "[ \\t]+by)?[ \\t]+(-?\\d+(?:\\.\\d+)?)",
      [],
      [⟨"curveRows", [("a", .str "$1:int"), ("b", .str "$2:int"), ("deg", .str "$4:float"),
          ("dir", .str "$3")]⟩]⟩,
    ⟨"s_bend",
      "\\bs-?[ \\t]?bend(?:[ \\t]+of)?[ \\t]+(-?\\d+(?:\\.\\d+)?)(?:[ \\t]*(?:deg"
        ++ "(?:rees?)?|°))?[ \\t]+(?:over|on|across|at)[ \\t]+rows[ \\t]+(\\d+)-(\\d+)(?:"
        ++ "[ \\t]+gain[ \\t]+(\\d+(?:\\.\\d+)?))?(?:[ \\t]+ratio[ \\t]+(\\d+"
        ++ "(?:\\.\\d+)?))?",
      [],
      [⟨"sBend", [("a", .str "$2:int"), ("b", .str "$3:int"), ("deg", .str "$1:float"),
          ("gain", .str "$4:float"), ("ratio", .str "$5:float")]⟩]⟩,
    ⟨"random_slopes",
      "\\b(?:random[ \\t]+)?slopes?(?:[ \\t]+(?:between|from))?[ \\t]+(-?\\d+"
        ++ "(?:\\.\\d+)?)[ \\t]*(?:-|to|and)[ \\t]*(-?\\d+(?:\\.\\d+)?)(?:[ \\t]*(?:deg"
        ++ "(?:rees?)?|°))?(?:[ \\t]+(?:every|per|segments?[ \\t]+of)[ \\t]+(\\d+)(?:"
        ++ "[ \\t]*rows?)?)?",
      [],
      [⟨"slopesRandomAuto", [("maxDeg", .str "$2:float"), ("minDeg", .str "$1:float"),
          ("segLen", .str "$3:int")]⟩]⟩,
    ⟨"margin_start",
      "\\bmargin_start[ \\t]+(\\d+)",
      [],
      [⟨"safeMarginStart", [("n", .str "$1:int")]⟩]⟩,
    ⟨"margin_end",
      "\\bmargin_end[ \\t]+(\\d+)",
      [],
      [⟨"safeMarginEnd", [("n", .str "$1:int")]⟩]⟩,
    ⟨"smooth_columns",
      "\\bsmooth[ \\t]+columns?(?:[ \\t]+(\\d+)[ \\t]*(?:x|times|passes?)?)?",
      [],
      [⟨"smoothColumns", [("passes", .str "$1:int")]⟩]⟩,
    ⟨"fill_all",
      "\\bfill[ \\t]+(?:all|everything)\\b",
      [],
      [⟨"fillAll", []⟩]⟩,
    ⟨"fill_rows",
      "\\bfill[ \\t]+rows?[ \\t]+(\\d+)(?:-(\\d+))?",
      [],
      [⟨"fillRows", [("a", .str "$1:int"), ("b", .str "$2:int")]⟩]⟩,
    ⟨"fill_tiles",
      "\\bfill[ \\t]+(?:tiles?|columns?|cols?)[ \\t]+(\\d+(?:[ \\t]*(?:,|and|-)"
        ++ "[ \\t]*\\d+)*)[ \\t]+(?:in|on|of|at)[ \\t]+row[ \\t]+(\\d+)",
      [],
      [⟨"fillTiles", [("cols", .str "$1:int_list"), ("row", .str "$2:int")]⟩]⟩]

/-- The third list of rules. -/
def builtinComposites : List RuleEntry :=
  [⟨"fork",
      "\\b(?:fork|split|y-?split)(?:[ \\t]+(?:at|over|across|on))?[ \\t]+rows[ \\t]+"
        ++ "(\\d+)-(\\d+)(?:[ \\t]+(?:gap|width)[ \\t]+(\\d+(?:\\.\\d+)?)(?:[ \\t]*"
        ++ "(?:-|to)[ \\t]*(\\d+(?:\\.\\d+)?))?)?",
      [],
      [⟨"ySplit", [("a", .str "$1:int"), ("b", .str "$2:int"), ("gapEnd", .str "$4:float"),
          ("gapStart", .str "$3:float")]⟩]⟩,
    ⟨"rejoin",
      "\\b(?:rejoin|merge)(?:[ \\t]+(?:at|over|across|on))?[ \\t]+rows[ \\t]+(\\d+)-"
        ++ "(\\d+)(?:[ \\t]+(?:to|target)[ \\t]+(\\d+(?:\\.\\d+)?))?",
      [],
      [⟨"rejoin", [("a", .str "$1:int"), ("b", .str "$2:int"), ("target", .str "$3:float")]⟩]⟩,
    ⟨"smooth_heights",
      "\\bsmooth(?:[ \\t]+the)?[ \\t]+heights?(?:[ \\t]+(\\d+)[ \\t]*(?:x|times|passes?)?)?",
      [],
      [⟨"smoothHeights", [("passes", .str "$1:int")]⟩]⟩]

/-- The document of the rulebook. -/
def builtinEntry : RulebookEntry :=
  ⟨1, builtinSynonyms, builtinIntents, builtinCommands, builtinComposites⟩

/-- The rulebook that comes with the program, as far as it passes the checks. -/
def builtin : Except RulebookError Rulebook :=
  ofDoc builtinEntry

end Raceway.Rulebook
