import Playthrough.Main
import Playthrough.Files.Tree
import Playthrough.Json.Reader
import Playthrough.Proofs.Course
import Playthrough.Proofs.Places
import Playthrough.Proofs.Sections
import Playthrough.Proofs.Music
import Playthrough.Proofs.Repeats
import Playthrough.Proofs.Endings
import Playthrough.Proofs.Visits
import Playthrough.Proofs.Renumbering
import Playthrough.Proofs.Settled
import Playthrough.Proofs.Steps
import Playthrough.Proofs.Stretches
import Playthrough.Proofs.Joining
import Playthrough.Proofs.Merging
import Playthrough.Proofs.Replays
import Playthrough.Proofs.Selections
import Playthrough.Proofs.IdleMarks
import Playthrough.Proofs.Commands
import Playthrough.Proofs.Budgets
import Playthrough.Proofs.Neighbours
import Playthrough.Proofs.Coverage
import Playthrough.Proofs.Ways
import Playthrough.Proofs.Flattening
import Playthrough.Proofs.Descriptions
import Playthrough.Proofs.FileTrees
import Playthrough.Proofs.Outcomes
import Playthrough.Proofs.Faults
import Playthrough.Proofs.Reading
import Playthrough.Proofs.Spellings
import Playthrough.Proofs.JsonTexts
import Playthrough.Proofs.Listings
import Playthrough.Proofs.Arguments
import Playthrough.Proofs.Limits
