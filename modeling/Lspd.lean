import Lspd.Process.Machine
import Lspd.Process.Program
import Lspd.Process.Singleflight
import Lspd.Process.Execution
import Lspd.Process.Mirror
import Lspd.Process.Scanner
import Lspd.Process.Broadcast
import Lspd.Process.Counting
import Lspd.Process.Timed
import Lspd.Store.Table
import Lspd.Store.Page
import Lspd.Store.Nested
import Lspd.Sorted.Matching
import Lspd.Sorted.Grouping
import Lspd.Sorted.Leaders
import Lspd.Codec.Lexer
import Lspd.Codec.JsonString
import Lspd.Codec.Json
import Lspd.Codec.Compaction
import Lspd.Codec.Objects
import Lspd.Codec.BigSize
import Lspd.Codec.Tlv
import Lspd.Machine.Int64
import Lspd.Machine.Shares
import Lspd.Lightning.OutPoint
import Lspd.Lightning.ShortChannelID
import Lspd.Lightning.Client
import Lspd.Common.Strconv
import Lspd.Common.Intercept
import Lspd.Common.OpeningService
import Lspd.Postgres.Payments
import Lspd.Postgres.PaymentHistory
import Lspd.Postgres.History
import Lspd.Postgres.Notifications
import Lspd.Interceptor.Handler
import Lspd.Interceptor.Trail
import Lspd.Interceptor.Contract
import Lspd.Interceptor.System
import Lspd.Interceptor.Consistency
import Lspd.Interceptor.Provenance
import Lspd.Interceptor.Funding
import Lspd.Interceptor.Shared
import Lspd.Interceptor.Sharing
import Lspd.Interceptor.Writes
import Lspd.Interceptor.Stopping
import Lspd.Interceptor.Replies
import Lspd.Interceptor.Parts
import Lspd.Interceptor.Lookups
import Lspd.Interceptor.Waiting
import Lspd.Interceptor.Legacy
import Lspd.Lightning.ChannelQueries
import Lspd.History.ChannelSync
import Lspd.History.ChannelPoints
import Lspd.Notifications.Service
import Lspd.Notifications.Spacing
import Lspd.Notifications.Server
import Lspd.Notifications.System
import Lspd.Btceclegacy.Ciphering
import Lspd.Btceclegacy.Accepted
import Lspd.ChannelOpener.Amounts
import Lspd.ChannelOpener.RegisterPayment
import Lspd.ChannelOpener.Expired
import Lspd.ChannelOpener.Fees
import Lspd.ChannelOpener.CheckChannels
import Lspd.ChannelOpener.ChannelInformation
import Lspd.ChannelOpener.Promises
import Lspd.Plugin.Messages
import Lspd.Plugin.Server
import Lspd.Plugin.Delivery
import Lspd.Plugin.Traffic
import Lspd.Plugin.Responses
import Lspd.Plugin.Timeouts
import Lspd.Plugin.Deadlines
import Lspd.Plugin.Framing
import Lspd.Plugin.RequestIds
import Lspd.Plugin.Json
import Lspd.Plugin.Acceptor
import Lspd.Plugin.Dispatch
import Lspd.Plugin.Answered
import Lspd.Plugin.Exchange
import Lspd.Plugin.Reader
import Lspd.Cln.Node
import Lspd.Cln.ForwardSync
import Lspd.Cln.Listing
import Lspd.Cln.Synchronised
import Lspd.Cln.Rounds
import Lspd.Cln.Interceptor
import Lspd.Cln.Onion
import Lspd.Cln.Relay
import Lspd.Cln.Accounts
import Lspd.Lnd.ForwardSync
import Lspd.Lnd.Synchronised
import Lspd.Lnd.Interceptor
import Lspd.Lnd.Subscriptions
import Lspd.Lnd.Subscribed
import Lspd.Lnd.Woken
import Lspd.Lnd.Closing
import Lspd.Lnd.Blocking
import Lspd.Lnd.Delivered
import Lspd.Revenue.Imports
import Lspd.Revenue.Report
import Lspd.Revenue.Receivers
import Lspd.Revenue.Hops
import Lspd.Revenue.Openings
import Lspd.Revenue.Command
import Lspd.Rpc.Authorization
import Lspd.ChannelOpener.System
import Lspd.ChannelOpener.Confinement
import Lspd.Cln.Waiting
import Lspd.Interceptor.HoldTime
import Lspd.Cmd.Completion
