import Lifecycle.Journal
import Lifecycle.Number.Binary64

/-! # Counters

The counters say how many events were stored, how many puts found their index taken, how many event
lines were malformed, how many pages of either kind were read, and how many deployments have a
sequence. They do not exist before they are set up, and what happens until then is not counted. The
counter of one kind of page exists once such a page was read. The number of deployments is set, not
counted up, and is held as a binary64 number. -/

namespace Lifecycle

/-- The counters. -/
structure Counters where
  stored : Nat := 0
  duplicate : Nat := 0
  malformed : Nat := 0
  complete : Option Nat := none
  incomplete : Option Nat := none
  tracked : Int := 0
  deriving DecidableEq, Repr, Inhabited

namespace Counters

/-- The count as it is held: the nearest binary64 number, if the count is in their range. -/
def held? (count : Int) : Option Int := (Binary64.ofRat count).toRat?.map Rat.num

/-- A count out of range can only be noted while there are no counters. -/
def canNote (c : Option Counters) : Tally → Bool
  | .tracked count => c.isNone || (held? count).isSome
  | _ => true

/-- Counts one thing. A count out of range changes nothing. -/
def note (c : Counters) : Tally → Counters
  | .stored => { c with stored := c.stored + 1 }
  | .duplicate => { c with duplicate := c.duplicate + 1 }
  | .malformed => { c with malformed := c.malformed + 1 }
  | .page true => { c with complete := some (c.complete.getD 0 + 1) }
  | .page false => { c with incomplete := some (c.incomplete.getD 0 + 1) }
  | .tracked count => { c with tracked := (held? count).getD c.tracked }

/-- Counts what happened, in order. -/
def noteAll (c : Counters) (tallies : List Tally) : Counters := tallies.foldl note c

theorem noteAll_append (c : Counters) (a b : List Tally) :
    c.noteAll (a ++ b) = (c.noteAll a).noteAll b := by
  simp [noteAll]

/-- Sets the counters up, which does nothing if they are. -/
def setUp : Option Counters → Option Counters × List Effect
  | some c => (some c, [])
  | none => (some {}, [.record Journal.countersReady])

/-- What starting the server of the counters did. -/
structure ServerStart where
  counters : Option Counters
  /-- Where the server was asked to listen. -/
  asked : List (Int × String)
  effects : List Effect

/-- Starts the server of the counters, if it is wanted. A server that cannot be started is only
reported. -/
def startServer (c : Option Counters) (wanted : Bool) (counterPort : Int)
    (failure : Option String) : ServerStart :=
  if wanted then
    let (c, effects) := setUp c
    let outcome := match failure with
      | some message => Journal.serverFailed message
      | none => Journal.serverStarted counterPort
    ⟨c, [(counterPort, "0.0.0.0")], effects ++ [.record outcome]⟩
  else ⟨c, [], [.record Journal.serverDisabled]⟩

end Counters

end Lifecycle
