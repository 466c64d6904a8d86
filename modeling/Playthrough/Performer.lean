import Playthrough.Roadmap

/-!
# The performer

A performer reads the roadmap of a score mark by mark. Each mark moves the reader to
another one: to the next mark, or by a jump to an earlier or later one. `Performer`
is everything a performer keeps in mind between two marks, and `Performer.step` is
the reaction to the mark under the cursor.

## The rules

*First time through* (`Mode.firstTime`): a `:||` goes back to the last `||:` as often
as it says. An ending bracket whose numbers contain the current pass is played, any
other one is skipped up to the next bracket or the close of the last one; the close
starts another pass until the highest ending has been played. To Coda and Fine are
passed over.

*After a D.C. or D.S.* (`Mode.replaying`): repeats and endings are played straight
through, To Coda goes to its coda, Fine ends the piece.

Each D.C. and D.S. is followed once. A jump forward moves the point up to which the
music has been shown (`shown`), so that what is skipped stays silent; a jump back
leaves it, and a D.C. forgets it, since the music before the first mark is played
again too.
-/

namespace Playthrough

/-- Whether repeats and endings are observed. -/
inductive Mode where
  /-- Before any D.C. or D.S. was followed. -/
  | firstTime
  /-- Since a D.C. or D.S. was followed. -/
  | replaying
deriving DecidableEq

/-- What a performer keeps in mind between two marks. -/
structure Performer where
  /-- The index of the mark to react to. -/
  cursor : Nat := 0
  /-- The index of the `||:` to go back to. -/
  repeatStart : Option Nat := none
  /-- How often the current `:||` still goes back, once it was reached. -/
  repeatsLeft : Option Nat := none
  /-- The current pass through the endings, counted from one. -/
  pass : Nat := 1
  /-- Whether a D.C. or D.S. is under way. -/
  mode : Mode := .firstTime
  /-- How far the music has been shown; nothing at the beginning and after a D.C. -/
  shown : Option Position := none
  /-- The indices of the D.C. and D.S. marks followed so far. -/
  followed : List Nat := []
deriving DecidableEq

/-- Navigation that leads nowhere; the performance goes on regardless. -/
inductive Warning where
  /-- A D.S. for which there is no segno. -/
  | dalSegnoWithoutSegno (label : Option String)
  /-- A To Coda for which there is no coda. -/
  | toCodaWithoutCoda (label : Option String)
  /-- A performance that was broken off because it would not end. -/
  | unsettled
deriving DecidableEq

/-- The wording of a warning. -/
def Warning.message : Warning → String
  | dalSegnoWithoutSegno _ => "dal segno has no matching segno"
  | toCodaWithoutCoda _ => "to coda has no matching coda"
  | unsettled => "navigation did not settle, returning partial sequence"

/-- Whether the piece goes on. -/
inductive Flow where
  | goOn
  | stop
deriving DecidableEq

/-- The reaction to a mark. -/
structure Reaction where
  /-- The performer afterwards. -/
  performer : Performer
  /-- Whether the piece goes on. -/
  flow : Flow := .goOn
  /-- What was found amiss. -/
  warning : Option Warning := none
deriving DecidableEq

namespace Performer

/-! ## Moves -/

/-- On to the next mark. -/
def advance (p : Performer) : Performer := { p with cursor := p.cursor + 1 }

/-- To the mark with the given index. What a jump forward skips counts as shown; a
jump past the last mark leaves nothing to skip to. -/
def jumpTo (road : Roadmap) (target : Nat) (p : Performer) : Performer :=
  let landing := if p.cursor < target then road[target]?.map PlacedMark.position else none
  { p with cursor := target, shown := landing.or p.shown }

/-- Back to the first mark, and to the music before it. -/
def restart (p : Performer) : Performer := { p with cursor := 0, shown := none }

/-- Notes that the command under the cursor is being followed. -/
def follow (p : Performer) : Performer :=
  { p with mode := .replaying, followed := p.cursor :: p.followed }

/-! ## Reactions to D.C. and D.S. -/

/-- A D.C. is followed the first time it is reached. -/
def atDaCapo (p : Performer) : Reaction :=
  if p.cursor ∈ p.followed then { performer := p.advance }
  else { performer := p.follow.restart }

/-- A D.S. is followed the first time it is reached, provided that its segno exists. -/
def atDalSegno (road : Roadmap) (label : Option String) (p : Performer) : Reaction :=
  if p.cursor ∈ p.followed then { performer := p.advance }
  else match road.firstSegno? label with
    | some target => { performer := p.follow.jumpTo road target }
    | none => { performer := p.advance, warning := some (.dalSegnoWithoutSegno label) }

/-! ## Reactions the first time through -/

/-- A `:||` counts down from its own number, and falls through when the count is used
up or when there is no `||:` to go back to. -/
def atRepeatBackward (road : Roadmap) (times : Nat) (p : Performer) : Performer :=
  match p.repeatStart, p.repeatsLeft.getD times with
  | some target, left + 1 => { p with repeatsLeft := some left }.jumpTo road target
  | _, _ => { p with repeatStart := none, repeatsLeft := none }.advance

/-- An ending bracket is entered on the passes it lists and skipped on all others. -/
def atVolta (road : Roadmap) (numbers : List Nat) (p : Performer) : Performer :=
  if p.pass ∈ numbers then p.advance
  else p.jumpTo road (road.nextEndingBoundary p.cursor)

/-- The close of the last ending goes back as long as a higher ending is left to be
played, and otherwise leaves the repeated section. -/
def atFinalVoltaEnd (road : Roadmap) (p : Performer) : Performer :=
  let passes := road.highestEnding (p.repeatStart.getD 0) p.cursor
  match p.repeatStart with
  | some target =>
    if p.pass < passes then { p with pass := p.pass + 1 }.jumpTo road target
    else { p with pass := 1, repeatStart := none }.advance
  | none => { p with pass := 1 }.advance

/-- The reaction to a mark as long as no D.C. or D.S. was followed. -/
def stepFirstTime (road : Roadmap) (kind : MarkKind) (p : Performer) : Reaction :=
  match kind with
  | .repeatForward => { performer := { p with repeatStart := some p.cursor }.advance }
  | .repeatBackward times => { performer := p.atRepeatBackward road times }
  | .volta numbers => { performer := p.atVolta road numbers }
  | .finalVoltaEnd => { performer := p.atFinalVoltaEnd road }
  | .daCapo => p.atDaCapo
  | .dalSegno label => p.atDalSegno road label
  | .segno _ | .coda _ | .toCoda _ | .fine => { performer := p.advance }

/-! ## Reactions in a replay -/

/-- The reaction to a mark once a D.C. or D.S. was followed. -/
def stepReplaying (road : Roadmap) (kind : MarkKind) (p : Performer) : Reaction :=
  match kind with
  | .daCapo => p.atDaCapo
  | .dalSegno label => p.atDalSegno road label
  | .toCoda label =>
    match road.firstCoda? label with
    | some target => { performer := p.jumpTo road target }
    | none => { performer := p.advance, warning := some (.toCodaWithoutCoda label) }
  | .fine => { performer := p, flow := .stop }
  | .repeatForward | .repeatBackward _ | .volta _ | .finalVoltaEnd | .segno _ | .coda _ =>
    { performer := p.advance }

/-- The reaction to the mark under the cursor; without one, the piece is over. -/
def step (road : Roadmap) (p : Performer) : Reaction :=
  match road[p.cursor]? with
  | none => { performer := p, flow := .stop }
  | some m =>
    match p.mode with
    | .firstTime => p.stepFirstTime road m.kind
    | .replaying => p.stepReplaying road m.kind

end Performer

end Playthrough
