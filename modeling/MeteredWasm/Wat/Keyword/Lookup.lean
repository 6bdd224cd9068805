import MeteredWasm.Wat.Keyword.Proposal

/-!
# Looking keywords up
-/

set_option autoImplicit false

namespace MeteredWasm.Wat.Keyword

/-- All keywords of a regular form. -/
def all : List (String × Form) := List.flatten [core, vector, proposal]

/-- What has to follow a keyword; nothing for one that is not an operator of a regular form. -/
def form? (keyword : String) : Option Form := all.lookup keyword

end MeteredWasm.Wat.Keyword
