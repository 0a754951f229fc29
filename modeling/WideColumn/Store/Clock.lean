/-!
# The clock of a store

Cells, regions and servers are stamped with ticks. A tick is the reading of the wall clock in
milliseconds, moved up where needed so that no two ticks are equal, even when the wall clock stands
still or runs backwards. The wall clock may move between the ticks of one call: `Clock.later` lists
what it shows at the ticks to come, and where the list ends it stands still.
-/

namespace WideColumn

/-- The wall clock as a store sees it. -/
structure Clock where
  /-- What the wall clock shows, in milliseconds. -/
  now : Nat
  /-- What it will show after each of the next ticks. -/
  later : List Nat := []
  /-- The last tick handed out. -/
  last : Nat := 0
  deriving DecidableEq, Inhabited

namespace Clock

/-- Hands out the next tick. -/
def tick (clock : Clock) : Nat × Clock :=
  let next := max clock.now (clock.last + 1)
  (next, { now := clock.later.headD clock.now, later := clock.later.tail, last := next })

/-- Hands out the given number of ticks, the earliest first. -/
def ticks : Nat → Clock → List Nat × Clock
  | 0, clock => ([], clock)
  | n + 1, clock =>
    let first := clock.tick
    let rest := ticks n first.2
    (first.1 :: rest.1, rest.2)

end Clock

end WideColumn
