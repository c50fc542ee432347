import CppRedis.Machine.Run
import CppRedis.Machine.Framing
import CppRedis.Machine.Bytes
import CppRedis.Machine.Pool
import CppRedis.Machine.Sessions
import CppRedis.Machine.Program
import CppRedis.Machine.Search
import CppRedis.Model.RedisCpp.Store
import CppRedis.Model.GameServer.Server
import CppRedis.Model.GameServer.Lobby
import CppRedis.Model.GameServer.Slot
import CppRedis.Model.GameServer.ClientInfo
import CppRedis.Model.GameServer.IOCPServer
import CppRedis.Model.RedisClient.Callers
import CppRedis.Soundness.PacketBuffer
import CppRedis.Soundness.Reassembly
import CppRedis.Soundness.Dispatch
import CppRedis.Soundness.Login
import CppRedis.Soundness.Admission
import CppRedis.Soundness.Membership
import CppRedis.Soundness.Capacity
import CppRedis.Soundness.Chat
import CppRedis.Soundness.Connections
import CppRedis.Soundness.Isolation
import CppRedis.Soundness.Handling
import CppRedis.Soundness.Tasks
import CppRedis.Soundness.Exclusion
import CppRedis.Soundness.Confinement
import CppRedis.Soundness.ClientBuffer
import CppRedis.Soundness.RoundTrip
import CppRedis.Soundness.Sending
import CppRedis.Soundness.Accepting
import CppRedis.Soundness.Notifications
import CppRedis.Soundness.Redirection
import CppRedis.Model.RedisClient.Threads
import CppRedis.Soundness.Attribution
import CppRedis.Soundness.Slots
import CppRedis.Soundness.Sections
import CppRedis.Soundness.Handshake
import CppRedis.Soundness.Lifetimes
import CppRedis.Soundness.Transmissions
import CppRedis.Soundness.Grouping
import CppRedis.Soundness.Resending
import CppRedis.Model.RedisClient.Commands
import CppRedis.Model.RedisClient.Pipelines
import CppRedis.Soundness.Reporting
import CppRedis.Soundness.NullPointers
import CppRedis.Machine.Delimited
import CppRedis.Machine.Keyspace
import CppRedis.Machine.Crc
import CppRedis.Machine.Effect
import CppRedis.Model.Redis.Server
import CppRedis.Model.RedisClient.Remote
import CppRedis.Model.RedisCpp.Methods
import CppRedis.Model.R3c.Utils
import CppRedis.Model.R3c.Command
import CppRedis.Model.R3c.Client
import CppRedis.Model.R3c.Scripts
import CppRedis.Soundness.Stores
import CppRedis.Soundness.FaultFree
import CppRedis.Soundness.Renaming
import CppRedis.Soundness.Batches
import CppRedis.Soundness.Interruption
import CppRedis.Soundness.KeySlots
import CppRedis.Soundness.Unpacking
import CppRedis.Soundness.Frames
import CppRedis.Soundness.Rounds
import CppRedis.Soundness.Executions
import CppRedis.Soundness.Retries
import CppRedis.Soundness.Masters
import CppRedis.Soundness.Refreshing
import CppRedis.Soundness.Rerouting
import CppRedis.Soundness.PacketStream
import CppRedis.Soundness.ClientStream
import CppRedis.Soundness.ReceiveLoop
import CppRedis.Soundness.SendOrder
import CppRedis.Soundness.RoomLimit
import CppRedis.Soundness.UserIndex
import CppRedis.Soundness.Errtypes
import CppRedis.Soundness.ReadBack
import CppRedis.Soundness.Entries
import CppRedis.Soundness.Contexts
import CppRedis.Soundness.Replicas
import CppRedis.Soundness.Topology
import CppRedis.Soundness.Markers
import CppRedis.Soundness.Asking
import CppRedis.Machine.StringStream
import CppRedis.Machine.Leases
import CppRedis.Model.RedisClient.Arguments
import CppRedis.Model.RedisClient.Replication
import CppRedis.Model.RedisClient.Sharing
import CppRedis.Model.Redis.Scripting
import CppRedis.Model.R3c.Positions
import CppRedis.Model.R3c.Numbers
import CppRedis.Model.R3c.Streams
import CppRedis.Model.R3c.Strings
import CppRedis.Soundness.Numerals
import CppRedis.Soundness.Addresses
import CppRedis.Soundness.Listings
import CppRedis.Soundness.Streaming
import CppRedis.Soundness.Consumers
import CppRedis.Soundness.Flattening
import CppRedis.Soundness.Failover
import CppRedis.Soundness.Renewals
import CppRedis.Soundness.Ownership
import CppRedis.Soundness.Answers
import CppRedis.Soundness.Increments
import CppRedis.Soundness.Integers
import CppRedis.Soundness.Prompt
import CppRedis.Soundness.Lookups
import CppRedis.Machine.Decimal
import CppRedis.Model.R3c.Integers
import CppRedis.Soundness.Decoding
import CppRedis.Soundness.Containers
import CppRedis.Model.RedisClient.Collections
import CppRedis.Model.RedisCpp.Collections
import CppRedis.Soundness.Fetches
import CppRedis.Soundness.Fields
import CppRedis.Soundness.Homes
import CppRedis.Soundness.Collecting
import CppRedis.Machine.Incremental
import CppRedis.Machine.Parsing
import CppRedis.Machine.Serving
import CppRedis.Model.Hiredis.Reader
import CppRedis.Model.Hiredis.Protocol
import CppRedis.Model.Hiredis.Sds
import CppRedis.Model.Hiredis.Format
import CppRedis.Model.Hiredis.Context
import CppRedis.Soundness.Descent
import CppRedis.Soundness.ReplyStream
import CppRedis.Soundness.ReplyRoundTrip
import CppRedis.Soundness.Formatting
import CppRedis.Soundness.Pipelining
import CppRedis.Machine.Buckets
import CppRedis.Model.Hiredis.Dict
import CppRedis.Model.Hiredis.Async
import CppRedis.Soundness.Dictionaries
import CppRedis.Soundness.AsyncCommands
import CppRedis.Soundness.Callbacks
import CppRedis.Soundness.EventLoop
import CppRedis.Machine.Subscribing
import CppRedis.Soundness.Subscriptions
import CppRedis.Soundness.Farewells
import CppRedis.Soundness.Broadcasts
