import MiniApp.Files
import MiniApp.Lint.Rules

/-!
# Linting files

The text of a file is linted under the name by which the file was asked for.
-/

namespace MiniApp.Lint

/-- Lint a file by the rules that the settings allow. -/
def lintFile (fs : Files) (s : Settings) (p : Path) : Except FileFailure Report := do
  return lint (defaultRules s) p.text (← fs.readText p)

end MiniApp.Lint
