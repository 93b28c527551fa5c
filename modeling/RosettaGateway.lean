import RosettaGateway.Api.Account
import RosettaGateway.Api.Backfill
import RosettaGateway.Api.Block
import RosettaGateway.Api.Construction
import RosettaGateway.Api.Error
import RosettaGateway.Api.Identifier
import RosettaGateway.Api.Lookup
import RosettaGateway.Api.Network
import RosettaGateway.Api.Query
import RosettaGateway.Api.Request
import RosettaGateway.Api.Response
import RosettaGateway.Api.Router
import RosettaGateway.Api.StakeLookup
import RosettaGateway.Chain.Address
import RosettaGateway.Chain.Coins
import RosettaGateway.Chain.Parameters
import RosettaGateway.Chain.Quantity
import RosettaGateway.Config.Basic
import RosettaGateway.Config.Flags
import RosettaGateway.Config.SocketAddress
import RosettaGateway.Curve.Secp256k1
import RosettaGateway.Curve.Signature
import RosettaGateway.Hash.Basic
import RosettaGateway.Hash.Keccak
import RosettaGateway.Hash.Sha256
import RosettaGateway.Json.Basic
import RosettaGateway.Json.Codec
import RosettaGateway.Json.Document
import RosettaGateway.Json.Number
import RosettaGateway.Json.Record
import RosettaGateway.Json.Spelling
import RosettaGateway.Main
import RosettaGateway.Node.Call
import RosettaGateway.Node.Dialogue
import RosettaGateway.Node.Error
import RosettaGateway.Node.Exchange
import RosettaGateway.Node.Reply
import RosettaGateway.Operation.Basic
import RosettaGateway.Operation.Intent
import RosettaGateway.Operation.Layout
import RosettaGateway.Operation.Metadata
import RosettaGateway.Operation.OfTx
import RosettaGateway.Operation.ToTx
import RosettaGateway.Operation.Type
import RosettaGateway.Rlp.Codec
import RosettaGateway.Rlp.Header
import RosettaGateway.Stake.Ledger
import RosettaGateway.Stake.Pool
import RosettaGateway.Stake.Return
import RosettaGateway.Text.BigEndian
import RosettaGateway.Text.Binary64
import RosettaGateway.Text.Hex
import RosettaGateway.Text.Numeral
import RosettaGateway.Text.Shortest
import RosettaGateway.Text.Utf8
import RosettaGateway.Toml.Basic
import RosettaGateway.Toml.Document
import RosettaGateway.Toml.Fraction
import RosettaGateway.Toml.Scalar
import RosettaGateway.Tx.Basic
import RosettaGateway.Tx.Body
import RosettaGateway.Tx.Error
import RosettaGateway.Tx.Kind
import RosettaGateway.Tx.Parts
import RosettaGateway.Tx.Wire
import RosettaGateway.Proofs.Keccak
import RosettaGateway.Proofs.Rlp.Codec
import RosettaGateway.Proofs.Wire
import RosettaGateway.Proofs.Json.Faithful
import RosettaGateway.Proofs.Metadata
import RosettaGateway.Proofs.Layout
import RosettaGateway.Proofs.RoundTrip
import RosettaGateway.Proofs.Block
import RosettaGateway.Proofs.Stake.Return
import RosettaGateway.Proofs.Signing
import RosettaGateway.Proofs.Construction.Basic
import RosettaGateway.Proofs.Construction.Combine
import RosettaGateway.Proofs.Construction.Intent
import RosettaGateway.Proofs.Construction.Payloads
import RosettaGateway.Proofs.Backfill
import RosettaGateway.Proofs.Stake.Schedule
import RosettaGateway.Proofs.Signs
import RosettaGateway.Proofs.Construction.Flow
import RosettaGateway.Proofs.Assembly
import RosettaGateway.Proofs.Stake.Replay
import RosettaGateway.Proofs.Stake.Multimap
import RosettaGateway.Proofs.Serving
import RosettaGateway.Proofs.Stake.Identifiers
import RosettaGateway.Proofs.Construction.Settings
import RosettaGateway.Proofs.Construction.Agreement
import RosettaGateway.Proofs.Reading
import RosettaGateway.Proofs.Conservation
import RosettaGateway.Proofs.Proposers
import RosettaGateway.Proofs.Balances
import RosettaGateway.Proofs.Gating
import RosettaGateway.Proofs.Construction.Matching
import RosettaGateway.Proofs.Nulls
import RosettaGateway.Proofs.Construction.Signatures
import RosettaGateway.Proofs.Backfill.Schedule
import RosettaGateway.Proofs.Backfill.Exact
import RosettaGateway.Proofs.Backfill.Rerun
import RosettaGateway.Proofs.Arrangement
import RosettaGateway.Proofs.Attaching
import RosettaGateway.Proofs.Answering
import RosettaGateway.Proofs.Accounts
import RosettaGateway.Proofs.PartialIdentifiers
import RosettaGateway.Proofs.Json.Renaming
import RosettaGateway.Proofs.Naming
import RosettaGateway.Proofs.Json.Printing
import RosettaGateway.Proofs.Json.Checking
import RosettaGateway.Proofs.JsonForms
import RosettaGateway.Proofs.Failures
import RosettaGateway.Proofs.Failures.Endpoints
import RosettaGateway.Proofs.Outages
import RosettaGateway.Proofs.Published
import RosettaGateway.Proofs.NodeNumbers
import RosettaGateway.Proofs.Rlp.Parts
import RosettaGateway.Proofs.Quantities
import RosettaGateway.Proofs.Hexadecimal
