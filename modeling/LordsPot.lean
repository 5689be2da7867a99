import LordsPot.Ingest.ExactlyOnce
import LordsPot.Relay.AtMostOnce
import LordsPot.Relay.Drawing
import LordsPot.Relay.Mapping
import LordsPot.Relay.Abandoned
import LordsPot.Settlement.Watermark
import LordsPot.Harvest.Soundness
import LordsPot.Harvest.Completeness
import LordsPot.Harvest.Exact
import LordsPot.Payout.DoublePayment
import LordsPot.Payout.OneLive
import LordsPot.Payout.Expiry
import LordsPot.Payout.SweepCompleteness
import LordsPot.Payout.Grounds
import LordsPot.Payout.Rotation
import LordsPot.Program.Authority
import LordsPot.Program.Epochs
import LordsPot.System.Harvested
import LordsPot.System.Vouchers
import LordsPot.Reveal.Gate
import LordsPot.Megapot.DeadEnd
import LordsPot.Megapot.RolledOver
import LordsPot.Megapot.Backfill
import LordsPot.Settlement.Pipeline
import LordsPot.Settlement.Confluence
import LordsPot.Vault.Allowance
import LordsPot.Harvest.Rehearsal
import LordsPot.Harvest.Headroom
import LordsPot.Settlement.PrizeTable
import LordsPot.Ingest.Buyers
import LordsPot.Program.Purchase
import LordsPot.Program.Migration
import LordsPot.Base.Resync
import LordsPot.Relay.Success
import LordsPot.Relay.Heeded
import LordsPot.Relay.Wrapping
import LordsPot.Library.Slices
import LordsPot.Payout.NoTrace
import LordsPot.Frontend.Tickets
import LordsPot.Frontend.Builder
import LordsPot.Frontend.QuickPick
import LordsPot.Library.Double
import LordsPot.Frontend.Purchase
import LordsPot.Frontend.Quote
import LordsPot.Program.Ledger
import LordsPot.Vault.Replay
import LordsPot.System.OnBase
import LordsPot.Ingest.Accounted
import LordsPot.Reveal.Winners
import LordsPot.Reveal.Summary
import LordsPot.Relay.Exclusive
import LordsPot.Ingest.Vouched
import LordsPot.System.OnSolana
import LordsPot.Relay.Arrival
import LordsPot.Relay.Distinct
import LordsPot.System.Bridge
import LordsPot.Payout.Outside
import LordsPot.System.Columns
import LordsPot.System.OnRecord
import LordsPot.System.Whole
import LordsPot.System.Claims
