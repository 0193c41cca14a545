import ReserveBridge.Lib.Guard
import ReserveBridge.Lib.Run
import ReserveBridge.Lib.Bucket
import ReserveBridge.Lib.Bytes
import ReserveBridge.Lib.Store
import ReserveBridge.Lib.Bounds
import ReserveBridge.Shared.Messages
import ReserveBridge.Evm.Types
import ReserveBridge.Evm.Bridge
import ReserveBridge.Evm.Step
import ReserveBridge.Evm.Solvency
import ReserveBridge.Evm.Authorization
import ReserveBridge.Evm.Authorities
import ReserveBridge.Evm.Migration
import ReserveBridge.Solana.Types
import ReserveBridge.Solana.Verification
import ReserveBridge.Solana.ProofLayout
import ReserveBridge.Solana.Limits
import ReserveBridge.Solana.Accounts
import ReserveBridge.Solana.Program
import ReserveBridge.Solana.Step
import ReserveBridge.Solana.Accounting
import ReserveBridge.Solana.Obligations
import ReserveBridge.Solana.Governance
import ReserveBridge.Solana.Approvals
import ReserveBridge.RollingLimit
import ReserveBridge.Service.Ed25519
import ReserveBridge.Service.Ledger.Types
import ReserveBridge.Service.Ledger.Admission
import ReserveBridge.Service.Ledger.Goldcoin
import ReserveBridge.Service.Ledger.Observation
import ReserveBridge.Service.Ledger.Review
import ReserveBridge.Service.Ledger.Refunds
import ReserveBridge.Service.Ledger.Payouts
import ReserveBridge.Service.Ledger.Vault
import ReserveBridge.Service.Ledger.Step
import ReserveBridge.Service.Ledger.Transitions
import ReserveBridge.Service.Ledger.Effects
import ReserveBridge.Service.Ledger.Unadvanced
import ReserveBridge.Service.Reservations
import ReserveBridge.Service.Lifecycle
import ReserveBridge.Service.Holds
import ReserveBridge.Service.Settlement
import ReserveBridge.Service.Headroom
import ReserveBridge.Service.BeginRefund
import ReserveBridge.Service.RefundRecovery
import ReserveBridge.Service.RefundExclusion
import ReserveBridge.Service.Reconciliation
import ReserveBridge.Service.Ledger.VaultRows
import ReserveBridge.Service.VaultClaims
import ReserveBridge.Lib.Table
import ReserveBridge.Service.Quorum
import ReserveBridge.Service.Robinhood.Types
import ReserveBridge.Service.Robinhood.Operations
import ReserveBridge.Service.Robinhood.Forward
import ReserveBridge.Service.Robinhood.Nonces
import ReserveBridge.Service.Robinhood.Settler
import ReserveBridge.Service.Robinhood.QuorumAgreement
import ReserveBridge.Lib.Sweep
import ReserveBridge.Service.Robinhood.Broadcast
import ReserveBridge.Service.Robinhood.Moves
import ReserveBridge.Service.Robinhood.Recovery
import ReserveBridge.Service.Robinhood.Replacement
import ReserveBridge.Service.Robinhood.Finality
import ReserveBridge.Lib.Attempt
import ReserveBridge.Service.Goldcoin.Indexer
import ReserveBridge.Service.Goldcoin.Rollback
import ReserveBridge.Service.Goldcoin.HashChain
import ReserveBridge.Service.BridgeRate
import ReserveBridge.Lib.StepFunction
import ReserveBridge.Service.Smoothing
import ReserveBridge.Service.Robinhood.Auth
import ReserveBridge.Service.SolanaAccounts
import ReserveBridge.Service.SolanaFolds
import ReserveBridge.Service.Robinhood.Observations
import ReserveBridge.Service.Robinhood.DepositEvent
import ReserveBridge.Service.Robinhood.DepositIndexer
import ReserveBridge.Service.Robinhood.DepositCoverage
import ReserveBridge.Service.Policy
import ReserveBridge.Lib.Descending
import ReserveBridge.Goldcoin.Coin
import ReserveBridge.Goldcoin.Selection
import ReserveBridge.Lib.Delimited
import ReserveBridge.Goldcoin.Tx
import ReserveBridge.Goldcoin.Multisig
import ReserveBridge.Goldcoin.Split
import ReserveBridge.Goldcoin.Payout
import ReserveBridge.Goldcoin.PayoutSelection
import ReserveBridge.Goldcoin.Fees
import ReserveBridge.Goldcoin.PayoutVerification
import ReserveBridge.Goldcoin.RedeemScript
import ReserveBridge.Lib.Radix
import ReserveBridge.Goldcoin.Address
import ReserveBridge.Lib.Bisection
import ReserveBridge.Service.DepositBound
import ReserveBridge.Lib.Limbs
import ReserveBridge.Service.BigMath
import ReserveBridge.Service.RateBand
import ReserveBridge.Lib.Significand
import ReserveBridge.Service.PriceText
import ReserveBridge.Service.PriceGrammar
import ReserveBridge.Lib.Floors
import ReserveBridge.Service.PoolPrice
import ReserveBridge.Lib.ExactScaling
import ReserveBridge.Service.Conversions
import ReserveBridge.Lib.Spelling
import ReserveBridge.Service.Robinhood.EvmText
import ReserveBridge.Service.Robinhood.SigningDocument
import ReserveBridge.Service.Robinhood.SignerPolicy
import ReserveBridge.Lib.Abi
import ReserveBridge.Service.Robinhood.Calldata
import ReserveBridge.Lib.Rlp
import ReserveBridge.Service.Robinhood.Transaction
import ReserveBridge.Service.Robinhood.DepositEncoding
import ReserveBridge.Service.Robinhood.FeeBumps
import ReserveBridge.Service.UnquotedFolds
import ReserveBridge.Lib.Utf8
import ReserveBridge.Service.PayoutRecipients
import ReserveBridge.Service.Goldcoin.SourceOutpoints
import ReserveBridge.Service.Goldcoin.Attribution
import ReserveBridge.Service.Goldcoin.Reindex
import ReserveBridge.Lib.Procedure
import ReserveBridge.Service.Goldcoin.Liquidity
import ReserveBridge.Service.Goldcoin.SplitDriver
