import InterfaceAudit.Project.Run
import InterfaceAudit.Script.Program

/-!
Runs with the reader of scripts that the program comes with.
-/

namespace InterfaceAudit.Project

def generate (settings : Settings) (root : Path) : Running Report :=
  generateWith Script.Tree.ofText settings root

end InterfaceAudit.Project
