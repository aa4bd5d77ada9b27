import Ryvo.State.Slots
import Ryvo.Machine.Program
import Ryvo.Machine.Localnet
import Ryvo.Ledger.Changes
import Ryvo.Ledger.Withdrawals
import Ryvo.Settlement.Bundle
import Ryvo.Settlement.Round
import Ryvo.Messages.CommitmentCodec
import Ryvo.Messages.ClearingRoundCodec
import Ryvo.Books.Tokens
import Ryvo.Books.Lending
import Ryvo.Books.Ops
import Ryvo.Actions.Effects
import Ryvo.Actions.Participants
import Ryvo.Actions.Channels
import Ryvo.Actions.Vault
import Ryvo.Actions.Settlements
import Ryvo.Actions.Yield
import Ryvo.Actions.Admin
import Ryvo.Actions.Makes
import Ryvo.Runs.Deployment
import Ryvo.Runs.Wiring
import Ryvo.Runs.Identity
import Ryvo.Runs.Lanes
import Ryvo.Runs.Rotation
import Ryvo.Runs.Signers
import Ryvo.Books.Strategy
import Ryvo.Books.Positions
import Ryvo.Runs.Claims
import Ryvo.Runs.Backing
import Ryvo.Runs.Withdrawals
import Ryvo.Runs.Collateral
import Ryvo.Runs.Minting
import Ryvo.Runs.Conversions
import Ryvo.Runs.Arbitrage
import Ryvo.Books.Solvency
import Ryvo.Books.Redemptions
import Ryvo.State.Addressing
import Ryvo.Layout.ParticipantBytes
import Ryvo.Layout.ParticipantAccess
import Ryvo.Layout.ParticipantMap
import Ryvo.Layout.ParticipantRefinement
import Ryvo.Layout.ParticipantStore
import Ryvo.Layout.ChannelBytes
import Ryvo.Messages.VarintOffsets
import Ryvo.Bls.ClientScalar
import Ryvo.Books.Accrual
import Ryvo.Runs.SharePrice
import Ryvo.Layout.ChannelAccess
import Ryvo.Layout.LaneCalls
import Ryvo.Runs.AccountBinding
import Ryvo.Layout.ChannelLanes
import Ryvo.Layout.AccountStructs
import Ryvo.Runs.Unlocks
import Ryvo.Runs.Cumulative
import Ryvo.Runs.Rounds
import Ryvo.Settlement.InTurn
import Ryvo.Messages.Ed25519Codec
import Ryvo.Runs.Bundles
import Ryvo.Runs.Netting
import Ryvo.Runs.Payouts
import Ryvo.Runs.Debits
import Ryvo.Support.Handover
import Ryvo.Runs.Governance
import Ryvo.Runs.Registry
import Ryvo.Runs.Exits
import Ryvo.Runs.Profiles
import Ryvo.Runs.Keys
import Ryvo.Runs.Consent
import Ryvo.Runs.Recovery
import Ryvo.Runs.YieldBooks
import Ryvo.Runs.Fields
import Ryvo.Layout.ClientReads
import Ryvo.Runs.Clients
import Ryvo.Runs.Quotes
import Ryvo.Runs.Forgery
import Ryvo.Runs.Guard
