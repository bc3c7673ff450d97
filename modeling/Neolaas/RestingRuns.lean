import Neolaas.AtomicProgram
import Neolaas.LabelledRuns

/-!
# Systems that come to rest

Some labels of a transition relation are steps of the system itself, the others
come from outside. When each of its own steps goes down in a well-founded order,
the system left alone stops after finitely many steps, in whatever order it takes
them. What is left of a program of atomic operations is such an order.
-/
namespace Neolaas.LabelledRuns

namespace Descends

end Descends
end Neolaas.LabelledRuns

namespace Neolaas.AtomicProgram

end Neolaas.AtomicProgram
