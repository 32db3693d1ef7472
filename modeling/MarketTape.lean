import MarketTape.Main
import MarketTape.Strategy.Scripted
import MarketTape.Proofs.Merge
import MarketTape.Proofs.Intake
import MarketTape.Proofs.Stretches
import MarketTape.Proofs.Ledger
import MarketTape.Proofs.LiveContract
import MarketTape.Proofs.Lifecycle
import MarketTape.Proofs.Conservation
import MarketTape.Proofs.Soundness
import MarketTape.Proofs.Clock
import MarketTape.Proofs.Numerals
import MarketTape.Proofs.Spelling
import MarketTape.Proofs.Framing
import MarketTape.Proofs.Overwriting
import MarketTape.Proofs.Inputs
import MarketTape.Proofs.Admission
import MarketTape.Proofs.Counters
import MarketTape.Proofs.Neutrality
import MarketTape.Proofs.Following
import MarketTape.Proofs.Pruning
import MarketTape.Proofs.Spectator
import MarketTape.Proofs.Callbacks
import MarketTape.Proofs.Encoding
import MarketTape.Proofs.Finite
import MarketTape.Proofs.Drafts
import MarketTape.Proofs.Calendar
import MarketTape.Proofs.Canonical
import MarketTape.Proofs.Logging
import MarketTape.Proofs.CashFlow
import MarketTape.Proofs.Service
import MarketTape.Proofs.Reversal
import MarketTape.Proofs.Deferral
import MarketTape.Proofs.Moving
import MarketTape.Proofs.Slippage
import MarketTape.Proofs.Range
import MarketTape.Proofs.Buckets
import MarketTape.Proofs.Drawing
import MarketTape.Proofs.AveragePrice
import MarketTape.Proofs.Splitting
import MarketTape.Proofs.Days
import MarketTape.Proofs.Rows
import MarketTape.Proofs.Paths
import MarketTape.Proofs.Reordering
import MarketTape.Proofs.Discovery
import MarketTape.Proofs.Detection
import MarketTape.Proofs.Drawdown
import MarketTape.Proofs.Digest
import MarketTape.Proofs.Fingerprint
import MarketTape.Proofs.Permission
import MarketTape.Proofs.Volatility
