import Lifecycle.Store

/-! # Pages

A reader asks for the events of a window. It gets them all or it gets none: an incomplete page only
says how many of its events are there. Completeness and the events are read one after the other, and
the sequence may be evicted in between, so a page is complete only if the events read fill the
window. -/

namespace Lifecycle

/-- What a page holds. -/
inductive PageContent
  | complete (events : List Event)
  /-- Some events are missing. The reader's own patience is given back to it. -/
  | incomplete (present : Nat) (maxWait : Option Binary64)
  deriving DecidableEq, Repr, Inhabited

/-- The answer to a reader. -/
structure Page where
  deployment : String
  window : Window
  content : PageContent
  deriving DecidableEq, Repr, Inhabited

namespace Page

/-- The page holds every event of its window. -/
def isComplete (p : Page) : Bool :=
  match p.content with
  | .complete _ => true
  | .incomplete _ _ => false

/-- How many events of the window there are. -/
def present (p : Page) : Nat :=
  match p.content with
  | .complete events => events.length
  | .incomplete present _ => present

/-- How many events of the window are missing. -/
def missing (p : Page) : Int := p.window.size - p.present

/-- The page of a window whose completeness is read from one state of the store and whose events are
read from a later one. -/
def between (before after : Store) (id : String) (w : Window) (maxWait : Option Binary64) : Page :=
  let events := after.extract id w
  if before.isComplete id w && events.length == w.size then ⟨id, w, .complete events⟩
  else ⟨id, w, .incomplete events.length maxWait⟩

/-- The page of a window. -/
def read (store : Store) (id : String) (w : Window) (maxWait : Option Binary64) : Page :=
  between store store id w maxWait

end Page

end Lifecycle
