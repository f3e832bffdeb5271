import Checklist.Text
import Checklist.Text.Trim
import Checklist.Text.Quoted
import Checklist.Text.Width
import Checklist.Openers.Source
import Checklist.Region
import Checklist.Advance
import Checklist.Session
import Checklist.Machine
import Checklist.LogFilter
import Checklist.Main
import Checklist.Proofs.LineIndex
import Checklist.Proofs.Accepted
import Checklist.Proofs.LineKind
import Checklist.Proofs.Openings
import Checklist.Proofs.Regions
import Checklist.Proofs.Advance
import Checklist.Proofs.Editing
import Checklist.Proofs.Agreement
import Checklist.Proofs.Period
import Checklist.Proofs.Arguments
import Checklist.Proofs.Files
import Checklist.Proofs.Perform
import Checklist.Proofs.Effects
import Checklist.Proofs.Repeats
import Checklist.Proofs.Highlights
import Checklist.Proofs.Recognition
import Checklist.Proofs.Refusal
import Checklist.Proofs.Saving
import Checklist.Proofs.ConfigText
import Checklist.Proofs.Replacement
import Checklist.Proofs.Ranges
import Checklist.Proofs.Partition
import Checklist.Proofs.Endings
import Checklist.Proofs.Reordering
import Checklist.Proofs.Width
import Checklist.Proofs.TabStops
import Checklist.Proofs.Search
import Checklist.Proofs.Terminal
import Checklist.Proofs.Tiling
import Checklist.Proofs.Drawing
import Checklist.Proofs.Marking
import Checklist.Proofs.Options
import Checklist.Proofs.RangeText
import Checklist.Proofs.Hexadecimal
import Checklist.Proofs.ColorFunction
import Checklist.Proofs.Clamping
import Checklist.Proofs.Escaping
