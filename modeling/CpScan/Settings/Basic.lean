/-
# Settings

What a user can choose in a settings file: whether to log more, the text of the interactive
prompt, and whether token lines end with the byte range of the token.  Each has a default, and
a file need not mention any.
-/
import CpScan.Text.Quoted

namespace CpScan

/-- The prompt that is shown unless another is chosen. -/
def defaultPrompt : String := "cp> "

/-- The choices a settings file can make. -/
structure Settings where
  /-- Log more. -/
  verbose : Bool := false
  /-- Text shown before each interactive line is read. -/
  prompt : String := defaultPrompt
  /-- End each token line with the byte range of the token. -/
  showSpans : Bool := false
deriving DecidableEq, Repr, Inhabited

namespace Settings

/-- The settings as they are written to the log. -/
def describe (s : Settings) : String :=
  s!"Config \x7b verbose: {s.verbose}, repl: ReplConfig \x7b prompt: " ++ Text.quoted s.prompt ++
    s!" \x7d, output: OutputConfig \x7b show_spans: {s.showSpans} \x7d \x7d"

end Settings

end CpScan
