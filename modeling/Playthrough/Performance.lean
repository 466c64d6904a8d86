import Playthrough.Passage
import Playthrough.Performer

/-!
# Performances

A performance alternates between playing and reacting: before the performer reacts
to a mark, the music up to that mark is played. The marks reached one after the
other are the *arrivals* of the performance, and its passages are what is played
before each arrival, followed by the rest of the score if the performance ran past
the last mark.

Navigation can go round in circles, so a performance has a budget of arrivals
(`Settings.budget`). Spending it breaks the performance off with a warning.

- `Performer.run` follows a performer to the end of its budget and keeps the trace;
- `perform` turns the trace into passages.
-/

namespace Playthrough

/-- What can be set about a performance. -/
structure Settings where
  /-- How many arrivals a performance may have for each mark of the score. -/
  iterationFactor : Nat := 20
deriving DecidableEq

namespace Settings

/-- The largest budget there is. -/
def maxBudget : Nat := 0xffffffffffffffff

/-- How many arrivals a performance of a score with this many marks may have. A factor
of zero counts as one. -/
def budget (s : Settings) (marks : Nat) : Nat :=
  min (marks * max s.iterationFactor 1) maxBudget

end Settings

/-! ## Traces -/

/-- How a performance came to its end. -/
inductive Ending where
  /-- At a Fine. -/
  | fine
  /-- Behind the last mark. -/
  | ranOff
  /-- By spending its budget. -/
  | unsettled
deriving DecidableEq

/-- The course of a performance. -/
structure Trace where
  /-- The performer upon each arrival at a mark, before the music up to it is played. -/
  arrivals : List Performer
  /-- What was found amiss, in order. -/
  warnings : List Warning
  /-- How the performance ended. -/
  ending : Ending
  /-- The performer at the end. -/
  last : Performer
deriving DecidableEq

namespace Performer

/-- Notes that the music has been played up to a position. -/
def playTo (goal : Position) (p : Performer) : Performer := { p with shown := some goal }

/-- Goes on from a performer, given what has happened so far (latest first), for at
most `budget` further arrivals. -/
def runFrom (road : Roadmap) : Nat → Performer → List Performer → List Warning → Trace
  | budget, p, arrivals, warnings =>
    let finish (ending : Ending) (arrivals : List Performer) (warnings : List Warning)
        (last : Performer) : Trace :=
      { arrivals := arrivals.reverse, warnings := warnings.reverse, ending, last }
    match road[p.cursor]? with
    | none => finish .ranOff arrivals warnings p
    | some m =>
      match budget with
      | 0 => finish .unsettled arrivals (.unsettled :: warnings) p
      | budget + 1 =>
        let reaction := (p.playTo m.position).step road
        let arrivals := p :: arrivals
        let warnings := reaction.warning.toList ++ warnings
        match reaction.flow with
        | .goOn => runFrom road budget reaction.performer arrivals warnings
        | .stop => finish .fine arrivals warnings reaction.performer

/-- The course of a performance from the given performer on. -/
def run (road : Roadmap) (budget : Nat) (p : Performer) : Trace :=
  runFrom road budget p [] []

end Performer

/-! ## Music -/

/-- The outcome of a performance: what was played, and what was found amiss. -/
structure Performance where
  /-- The passages in playing order. -/
  passages : List Passage := []
  /-- The warnings in order. -/
  warnings : List Warning := []
deriving DecidableEq

/-- The music played on arrival at a mark. -/
def arrivalPassages (score : List Segment) (road : Roadmap) (p : Performer) : List Passage :=
  match road[p.cursor]? with
  | some m => Passage.between score p.shown m.position
  | none => []

/-- The music played after the last arrival: the rest of the score if there was no
mark left, and nothing if the performance was ended before. -/
def closingPassages (score : List Segment) (trace : Trace) : List Passage :=
  match trace.ending with
  | .ranOff => Passage.between score trace.last.shown (Position.endOf (score.length - 1))
  | .fine | .unsettled => []

/-- Performs a score. -/
def perform (settings : Settings) (score : List Segment) : Performance :=
  if score.isEmpty then {}
  else
    let road := Roadmap.ofScore score
    let trace := ({} : Performer).run road (settings.budget road.length)
    { passages := trace.arrivals.flatMap (arrivalPassages score road) ++
        closingPassages score trace
      warnings := trace.warnings }

end Playthrough
