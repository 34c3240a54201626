import DecisionSpace.Assignment
import DecisionSpace.Bandit
import DecisionSpace.Bandit.Counters
import DecisionSpace.Bandit.Plan
import DecisionSpace.Bandit.Policy
import DecisionSpace.Bandit.Posterior
import DecisionSpace.Bandit.RunningStats
import DecisionSpace.Bandit.Snapshot
import DecisionSpace.Config
import DecisionSpace.Config.Decode
import DecisionSpace.Config.Document
import DecisionSpace.Config.Load
import DecisionSpace.Config.Toml
import DecisionSpace.Config.Toml.Scalar
import DecisionSpace.Config.Yaml
import DecisionSpace.Config.Yaml.Glyph
import DecisionSpace.Config.Yaml.Node
import DecisionSpace.Config.Yaml.Scalar
import DecisionSpace.Config.Yaml.Token
import DecisionSpace.Config.Yaml.Value
import DecisionSpace.Context
import DecisionSpace.Count
import DecisionSpace.Decimal.Binary
import DecisionSpace.Decimal.Places
import DecisionSpace.Decimal.Read
import DecisionSpace.Decimal.Shortest
import DecisionSpace.Declaration
import DecisionSpace.Domain
import DecisionSpace.Examples
import DecisionSpace.Failure
import DecisionSpace.Inspect
import DecisionSpace.Main
import DecisionSpace.Model
import DecisionSpace.Path
import DecisionSpace.Proofs.Context
import DecisionSpace.Proofs.Fallible
import DecisionSpace.Sampling.Beta
import DecisionSpace.Sampling.ChaCha
import DecisionSpace.Sampling.Elementary
import DecisionSpace.Sampling.Gamma
import DecisionSpace.Sampling.Generator
import DecisionSpace.Sampling.Source
import DecisionSpace.Sampling.Ziggurat
import DecisionSpace.Sampling.Ziggurat.Exponential
import DecisionSpace.Sampling.Ziggurat.Normal
import DecisionSpace.Search.Enumeration
import DecisionSpace.Search.Repair
import DecisionSpace.Search.Settings
import DecisionSpace.Search.Solver
import DecisionSpace.Search.Start
import DecisionSpace.Table
import DecisionSpace.Tour
import DecisionSpace.Value
import DecisionSpace.Value.Shape
import DecisionSpace.Proofs.Domain
import DecisionSpace.Proofs.Built
import DecisionSpace.Proofs.Solution
import DecisionSpace.Proofs.Search.Start
import DecisionSpace.Proofs.Search.Counting
import DecisionSpace.Proofs.Search.Repair
import DecisionSpace.Proofs.Search.Attempt
import DecisionSpace.Proofs.Search.Witness
import DecisionSpace.Proofs.Search.Ranking
import DecisionSpace.Proofs.Search.Walk
import DecisionSpace.Proofs.Search.Enumeration
import DecisionSpace.Proofs.Search.Rejection
import DecisionSpace.Proofs.Search.Agreement
import DecisionSpace.Proofs.Search.Reach
import DecisionSpace.Proofs.Path
import DecisionSpace.Proofs.Tree
import DecisionSpace.Proofs.Layout
import DecisionSpace.Proofs.Arena
import DecisionSpace.Proofs.Resolution
import DecisionSpace.Proofs.Acceptance
import DecisionSpace.Proofs.Projection
import DecisionSpace.Proofs.Table
import DecisionSpace.Proofs.Decoding
import DecisionSpace.Proofs.Bandit.Calls
import DecisionSpace.Proofs.Bandit.Arms
import DecisionSpace.Proofs.Bandit.Restoration
import DecisionSpace.Proofs.FirstOccurrence
import DecisionSpace.Proofs.Search.Distinct
import DecisionSpace.Proofs.Bandit.Selection
import DecisionSpace.Proofs.Bandit.Updates
import DecisionSpace.Proofs.Bandit.Rewards
import DecisionSpace.Proofs.Bandit.Recognition
import DecisionSpace.Proofs.Bandit.Generation
import DecisionSpace.Proofs.Bandit.Accounts
import DecisionSpace.Proofs.Search.Work
import DecisionSpace.Proofs.Bandit.Best
import DecisionSpace.Proofs.Bandit.Merging
import DecisionSpace.Proofs.Search.Switching
import DecisionSpace.Proofs.Search.LowestFirst
import DecisionSpace.Proofs.Meaning
import DecisionSpace.Proofs.Joining
import DecisionSpace.Proofs.Listing
import DecisionSpace.Proofs.Search.Guarded
import DecisionSpace.Proofs.Bandit.Statistics
import DecisionSpace.Proofs.Bandit.Conjugate
import DecisionSpace.Proofs.Extraction
import DecisionSpace.Proofs.Arithmetic
import DecisionSpace.Proofs.Bandit.Counts
import DecisionSpace.Proofs.Bandit.Exports
import DecisionSpace.Proofs.Links
import DecisionSpace.Proofs.Search.Upkeep
import DecisionSpace.Proofs.Directory
import DecisionSpace.Proofs.Bandit.Index
