import Lifecycle.Proofs.Page.Poll

/-! # Events that are written once

Between two evictions of a deployment the first event put at an index stays there. Every later put
at that index, whatever it carries, is told of the first event and changes nothing at all, so it
does not prolong the life of the sequence either. A window that is complete stays complete, and its
page is the same page from then on. A put that is refused leaves the whole store as it was.

A put is entered in the journal before it is answered. Where the process has set a limit on the
digits of a number, an index beyond it cannot be entered, nor can a refusal name it. Then the fault is
another one, and nothing else is different: a valid put has stored its event, and a refused one has
changed nothing. -/

namespace Lifecycle.Store

section

variable {store : Store} {id : String} {i : Int}

/-! ### One event for each index -/

variable {limit : Option Nat} {now : Rat} {event : Event} {correlation : Option String}

end

/-! ### Main result -/

end Lifecycle.Store
