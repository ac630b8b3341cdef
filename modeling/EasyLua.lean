import EasyLua.Foundation.Machine
import EasyLua.Foundation.Ledger
import EasyLua.Foundation.LittleEndian
import EasyLua.Foundation.Parser
import EasyLua.Foundation.PartialMap
import EasyLua.Foundation.Probing
import EasyLua.Foundation.Leases
import EasyLua.Foundation.Custody
import EasyLua.Foundation.BinarySearch
import EasyLua.Foundation.Cells
import EasyLua.Foundation.TaggedWord
import EasyLua.Foundation.Sharing
import EasyLua.Foundation.IndexedStack
import EasyLua.Foundation.Rotation
import EasyLua.Foundation.Splitting
import EasyLua.Foundation.LinkedChain
import EasyLua.Foundation.ByteMemory
import EasyLua.Foundation.Decimal
import EasyLua.Foundation.WaitSet
import EasyLua.Foundation.Simulation
import EasyLua.Foundation.Locks
import EasyLua.Foundation.Threads
import EasyLua.Foundation.Atomicity
import EasyLua.Foundation.Following
import EasyLua.Foundation.CountedMemory
import EasyLua.Foundation.Ownership
import EasyLua.Service.Context
import EasyLua.Service.BlockingQueue
import EasyLua.Service.Dispatch
import EasyLua.Service.Wakeup
import EasyLua.Service.Delivery
import EasyLua.Service.Order
import EasyLua.Registry.Register
import EasyLua.Registry.DtorCallback
import EasyLua.Registry.Mirror
import EasyLua.Registry.Reuse
import EasyLua.Registry.Iteration
import EasyLua.Registry.HandleManager
import EasyLua.Registry.SlotTable
import EasyLua.Registry.Names
import EasyLua.Registry.Placement
import EasyLua.Registry.Manager
import EasyLua.Registry.Forgotten
import EasyLua.Registry.Reserved
import EasyLua.Registry.Usable
import EasyLua.Network.AsyncHandle
import EasyLua.Network.Handle
import EasyLua.Network.Watchers
import EasyLua.Network.Closing
import EasyLua.Service.StartService
import EasyLua.Service.Report
import EasyLua.Service.Lifetime
import EasyLua.Service.Membership
import EasyLua.Service.Monitor
import EasyLua.Service.Address
import EasyLua.Service.Session
import EasyLua.Service.Locking
import EasyLua.Service.Atomic
import EasyLua.Service.Refinement
import EasyLua.Service.Buffers
import EasyLua.Service.Handles
import EasyLua.Service.MessageSize
import EasyLua.Service.SplitString
import EasyLua.Service.CommandLine
import EasyLua.Service.Arguments
import EasyLua.Seri.Value
import EasyLua.Seri.WriteBlock
import EasyLua.Seri.BlockChain
import EasyLua.Seri.BlockFree
import EasyLua.Seri.Pack
import EasyLua.Seri.Reach
import EasyLua.Seri.Format
import EasyLua.Seri.Fuel
import EasyLua.Seri.Unpack
import EasyLua.Seri.Bounds
import EasyLua.Seri.ArrayCount
import EasyLua.Seri.PackFormat
import EasyLua.Seri.ParseFormat
import EasyLua.Seri.RoundTrip
import EasyLua.Seri.Truncation
import EasyLua.Seri.Decoded
import EasyLua.Seri.Forward
import EasyLua.Seri.Copy
import EasyLua.Seri.Stack
import EasyLua.Seri.Pairs
import EasyLua.Seri.UnpackStack
import EasyLua.Service.Journey
import EasyLua.Socket.LuaStack
import EasyLua.Socket.Accept
import EasyLua.Socket.AddressArgument
import EasyLua.Socket.BoundAddress
import EasyLua.Socket.Descriptors
import EasyLua.Service.Script
