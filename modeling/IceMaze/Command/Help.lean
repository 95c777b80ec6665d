/-!
What the program tells about itself: a page for every command, and its version.
-/

namespace IceMaze

/-- What a page is about. -/
inductive Topic where
  | program | check | play | writeRules | convert | help
  deriving DecidableEq

/-- The commands that `help` can be asked about. -/
def Topic.ofName? : String → Option Topic
  | "check" => some .check
  | "play" => some .play
  | "write-rules" => some .writeRules
  | "convert" => some .convert
  | "help" => some .help
  | _ => none

structure HelpPage where
  about : String
  usage : String
  /-- Sections with their title, and what is said of each name in them. -/
  sections : List (String × List (String × String))

namespace HelpPage

def spaces (n : Nat) : String := String.ofList (List.replicate n ' ')

/-- Names stand in a column as wide as the widest of them. -/
def rowText (width : Nat) (row : String × String) : String :=
  s!"  {row.1}{spaces (width - row.1.length)}  {row.2}\n"

def sectionText (part : String × List (String × String)) : String :=
  let width := (part.2.map (·.1.length)).foldl max 0
  s!"\n{part.1}:\n" ++ String.join (part.2.map (rowText width))

def text (p : HelpPage) : String :=
  s!"{p.about}\n\nUsage: thin-ice {p.usage}\n" ++ String.join (p.sections.map sectionText)

end HelpPage

def helpRow : String × String := ("-h, --help", "Print help")

def Topic.page : Topic → HelpPage
  | .program => {
      about := "Engine-independent simulation core for the Thin Ice sliding puzzle"
      usage := "<COMMAND>"
      sections := [
        ("Commands", [
          ("check", "Parse a level file (or the built-in levels) and summarize each level"),
          ("play", "Replay a move string (U/D/L/R, X to reset) and print the result"),
          ("write-rules", "Write a rules file, starting from an existing one or the defaults"),
          ("convert", "Re-encode a level file"),
          ("help", "Print this message or the help of the given subcommand(s)")]),
        ("Options", [helpRow, ("-V, --version", "Print version")])] }
  | .check => {
      about := "Parse a level file (or the built-in levels) and summarize each level"
      usage := "check [FILE]"
      sections := [
        ("Arguments", [("[FILE]", "Level file; `.json` is read as JSON, anything else as text")]),
        ("Options", [helpRow])] }
  | .play => {
      about := "Replay a move string (U/D/L/R, X to reset) and print the result"
      usage := "play [OPTIONS] <MOVES>"
      sections := [
        ("Arguments", [("<MOVES>", "")]),
        ("Options", [
          ("-f, --file <FILE>", "Level file; the built-in levels when omitted"),
          ("-l, --level <LEVEL>", "Level to start on (1-based) [default: 1]"),
          ("-s, --seed <SEED>", "Seed for alt patch selection [default: 0]"),
          ("-r, --rules <RULES>", "Rules JSON file"),
          ("-m, --momentum <MOMENTUM>", "Override the block momentum rule (slide or single)"),
          helpRow])] }
  | .writeRules => {
      about := "Write a rules file, starting from an existing one or the defaults"
      usage := "write-rules [OPTIONS] <OUT>"
      sections := [
        ("Arguments", [("<OUT>", "")]),
        ("Options", [
          ("    --from <FROM>",
            "Rules file to start from; an unreadable one falls back to the defaults"),
          ("-m, --momentum <MOMENTUM>", "Block momentum rule (slide or single)"),
          helpRow])] }
  | .convert => {
      about := "Re-encode a level file"
      usage := "convert --to <TO> <FILE>"
      sections := [
        ("Arguments", [("<FILE>", "")]),
        ("Options", [("    --to <TO>", "[possible values: json, text]"), helpRow])] }
  | .help => {
      about := "Print this message or the help of the given subcommand(s)"
      usage := "help [COMMAND]..."
      sections := [("Arguments", [("[COMMAND]...", "Print help for the subcommand(s)")])] }

def versionText : String := "thin-ice 0.1.0\n"

end IceMaze
