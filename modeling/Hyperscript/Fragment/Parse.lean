import Hyperscript.Fragment.Tree
import Hyperscript.MarkupReader.Read

namespace Hyperscript.Fragment

/-- Read a fragment of HTML as a root, as far as the reader goes that the program has for a parser. -/
def parse (text : String) : Node :=
  tree (MarkupReader.read text)

end Hyperscript.Fragment
