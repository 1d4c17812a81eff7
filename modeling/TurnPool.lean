import TurnPool.Ascending
import TurnPool.Category
import TurnPool.Config.Basic
import TurnPool.Config.Document
import TurnPool.Config.Dotenv
import TurnPool.Config.Environment
import TurnPool.Config.Log
import TurnPool.Config.Settings
import TurnPool.Failure
import TurnPool.Fault
import TurnPool.Json.Decode
import TurnPool.Json.Plain
import TurnPool.Json.Reader
import TurnPool.Json.Value
import TurnPool.Pool.Basic
import TurnPool.Pool.Context
import TurnPool.Pool.Kit
import TurnPool.Pool.Pause
import TurnPool.Pool.Stats
import TurnPool.Priority
import TurnPool.Proofs.Acquisitions
import TurnPool.Proofs.Agreement
import TurnPool.Proofs.Backoffs
import TurnPool.Proofs.ConfigPaths
import TurnPool.Proofs.CrewEntries
import TurnPool.Proofs.CrewLives
import TurnPool.Proofs.Decoding
import TurnPool.Proofs.Dockets
import TurnPool.Proofs.DocumentRoundTrip
import TurnPool.Proofs.Entries
import TurnPool.Proofs.GroupClaims
import TurnPool.Proofs.GroupEntry
import TurnPool.Proofs.GroupHistory
import TurnPool.Proofs.GroupMirror
import TurnPool.Proofs.GroupPlaces
import TurnPool.Proofs.GroupSlot
import TurnPool.Proofs.GroupTidy
import TurnPool.Proofs.GroupTurns
import TurnPool.Proofs.Halts
import TurnPool.Proofs.JsonRoundTrip
import TurnPool.Proofs.KeptTasks
import TurnPool.Proofs.Lifecycle
import TurnPool.Proofs.Operations
import TurnPool.Proofs.Overrides
import TurnPool.Proofs.Passages
import TurnPool.Proofs.PauseBooks
import TurnPool.Proofs.PauseHistory
import TurnPool.Proofs.PauseOutcomes
import TurnPool.Proofs.Plays
import TurnPool.Proofs.Precedence
import TurnPool.Proofs.Producers
import TurnPool.Proofs.QueueDepth
import TurnPool.Proofs.QueueEntries
import TurnPool.Proofs.QueueOrder
import TurnPool.Proofs.QuitAccounts
import TurnPool.Proofs.Reclaims
import TurnPool.Proofs.Renewals
import TurnPool.Proofs.Requests
import TurnPool.Proofs.RetryTimes
import TurnPool.Proofs.Routing
import TurnPool.Proofs.Runs
import TurnPool.Proofs.SceneCrews
import TurnPool.Proofs.SingleEntry
import TurnPool.Proofs.SingleSlot
import TurnPool.Proofs.Stacks
import TurnPool.Proofs.Steps
import TurnPool.Proofs.Stops
import TurnPool.Proofs.Stories
import TurnPool.Proofs.Threads
import TurnPool.Proofs.Timetable
import TurnPool.Proofs.TokenAnswers
import TurnPool.Proofs.TokenNotes
import TurnPool.Proofs.TokenSlots
import TurnPool.Proofs.Wakes
import TurnPool.Proofs.Watermarks
import TurnPool.Proofs.WorkerSlots
import TurnPool.Proofs.World
import TurnPool.Proofs.Wrapping
import TurnPool.Queue
import TurnPool.Scenario.Answer
import TurnPool.Scenario.Op
import TurnPool.Scenario.Operate
import TurnPool.Scenario.Play
import TurnPool.Scenario.Scene
import TurnPool.Scenario.Setup
import TurnPool.Scenario.Step
import TurnPool.Scenario.Thread
import TurnPool.Sizer
import TurnPool.Task.Crew
import TurnPool.Task.Group
import TurnPool.Task.Lifecycle
import TurnPool.Task.Single
import TurnPool.Task.State
import TurnPool.Task.Timetable
import TurnPool.Text.Alphanumeric
import TurnPool.Text.Basic
import TurnPool.Text.Hidden
import TurnPool.Text.Numeral
import TurnPool.Text.Shown
import TurnPool.Time
import TurnPool.Token.Ledger
import TurnPool.Token.Signal
import TurnPool.Waiters
