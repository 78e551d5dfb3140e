import RollingBall.Main
import RollingBall.Proofs.Reading.Grammar
import RollingBall.Proofs.Reading.Readers
import RollingBall.Proofs.Reading.Exactness
import RollingBall.Proofs.Folding.Meaning
import RollingBall.Proofs.Folding.Building
import RollingBall.Proofs.Graphs.Ids
import RollingBall.Proofs.Graphs.Places
import RollingBall.Proofs.Numbers.Ieee
import RollingBall.Proofs.Numbers.Double
import RollingBall.Proofs.Motion.Move
import RollingBall.Proofs.Motion.Matching
import RollingBall.Proofs.Motion.Rolling
import RollingBall.Proofs.Rounds.Lockstep
import RollingBall.Proofs.Rounds.History
import RollingBall.Proofs.Rounds.Splitting
import RollingBall.Proofs.Graphs.Edits
import RollingBall.Proofs.Graphs.Log
import RollingBall.Proofs.Graphs.Answers
import RollingBall.Proofs.Reading.Passages
import RollingBall.Proofs.Reading.Comparisons
import RollingBall.Proofs.Obstacles.Wheels
import RollingBall.Proofs.Obstacles.Carrying
import RollingBall.Proofs.Obstacles.Rigid
import RollingBall.Proofs.Numbers.Range
import RollingBall.Proofs.Rounds.Calls
import RollingBall.Proofs.Motion.Falling
import RollingBall.Proofs.Json.RoundTrip
import RollingBall.Proofs.Rounds.Safety
import RollingBall.Proofs.Blueprints.Decimals
import RollingBall.Proofs.Blueprints.Records
import RollingBall.Proofs.Blueprints.RoundTrip
import RollingBall.Proofs.Folding.NormalForm
import RollingBall.Proofs.Numbers.Real
import RollingBall.Proofs.Reading.Heights
import RollingBall.Proofs.Rounds.Steady
import RollingBall.Proofs.Rounds.Support
import RollingBall.Proofs.Rounds.Falls
import RollingBall.Proofs.Rounds.Endings
import RollingBall.Proofs.Rounds.Idle
import RollingBall.Proofs.Blueprints.Fields
import RollingBall.Proofs.Blueprints.Rearranging
import RollingBall.Proofs.CommandLine.Outcomes
import RollingBall.Proofs.CommandLine.Losses
import RollingBall.Proofs.Graphs.Colors
import RollingBall.Proofs.Graphs.Hues
import RollingBall.Proofs.Motion.Highest
import RollingBall.Proofs.Contact.Peaks
import RollingBall.Proofs.Motion.Afresh
import RollingBall.Proofs.Contact.Shifts
import RollingBall.Proofs.Contact.Within
import RollingBall.Proofs.Contact.Domains
import RollingBall.Proofs.Folding.Refutation
import RollingBall.Proofs.Reading.Merging
import RollingBall.Proofs.Contact.Counting
import RollingBall.Proofs.Reading.Cuts
import RollingBall.Proofs.Reading.Refusals
import RollingBall.Proofs.Scanning.Scanner
import RollingBall.Proofs.Scanning.Outcomes
import RollingBall.Proofs.Scanning.Runs
import RollingBall.Proofs.Scanning.Phrases
import RollingBall.Proofs.Reading.Lossless
import RollingBall.Proofs.Scanning.Ends
