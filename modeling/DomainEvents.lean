import DomainEvents.Bus.Broker
import DomainEvents.Bus.Config
import DomainEvents.Bus.Delivery
import DomainEvents.Bus.Direct
import DomainEvents.Bus.History
import DomainEvents.Bus.Pool
import DomainEvents.Bus.Replay
import DomainEvents.Bus.Stored
import DomainEvents.Bus.Trace
import DomainEvents.Bus.Worker
import DomainEvents.Catalog.Mixed
import DomainEvents.Catalog.Order
import DomainEvents.Catalog.Topic
import DomainEvents.Codec.Basic
import DomainEvents.Codec.Mismatch
import DomainEvents.Codec.Record
import DomainEvents.Context
import DomainEvents.Decimal.Double
import DomainEvents.Decimal.Shortest
import DomainEvents.Error
import DomainEvents.Event.Basic
import DomainEvents.Event.Name
import DomainEvents.Event.Reader
import DomainEvents.Event.Record
import DomainEvents.Interest
import DomainEvents.Json.Access
import DomainEvents.Json.Basic
import DomainEvents.Json.Number
import DomainEvents.Json.Printer
import DomainEvents.Json.Reader
import DomainEvents.Kind.Basic
import DomainEvents.Kind.Declaration
import DomainEvents.Kind.Expansion
import DomainEvents.Kind.SnakeCase
import DomainEvents.Kind.Typed
import DomainEvents.Metrics
import DomainEvents.Registry
import DomainEvents.Run
import DomainEvents.Simulation.FaultyStore
import DomainEvents.Simulation.Probe
import DomainEvents.Simulation.Reader
import DomainEvents.Simulation.Run
import DomainEvents.Simulation.Schedule
import DomainEvents.Simulation.Script
import DomainEvents.Simulation.Spy
import DomainEvents.Simulation.Task
import DomainEvents.Simulation.World
import DomainEvents.Store.Empty
import DomainEvents.Store.Memory
import DomainEvents.Text.Blank
import DomainEvents.Text.Capital
import DomainEvents.Text.Combining
import DomainEvents.Text.Dotted
import DomainEvents.Text.Quoted
import DomainEvents.Time.Date
import DomainEvents.Time.Instant
import DomainEvents.Time.Span
import DomainEvents.Time.Text
import DomainEvents.Uuid
import DomainEvents.Version
import DomainEvents.Proofs.Bus.Rule
import DomainEvents.Proofs.Bus.Run
import DomainEvents.Proofs.Bus.Route
import DomainEvents.Proofs.Bus.Slots
import DomainEvents.Proofs.Bus.Closing
import DomainEvents.Proofs.Bus.Publishing
import DomainEvents.Proofs.Bus.Backlog
import DomainEvents.Proofs.Bus.Calls
import DomainEvents.Proofs.Bus.Worker
import DomainEvents.Proofs.Bus.Counting
import DomainEvents.Proofs.Behaviour
import DomainEvents.Proofs.Bus.Draining
import DomainEvents.Proofs.Bus.Closers
import DomainEvents.Proofs.Bus.Reclosing
import DomainEvents.Proofs.Bus.Called
import DomainEvents.Proofs.Bus.Serial
import DomainEvents.Proofs.Bus.Delivery
import DomainEvents.Proofs.Bus.Delivering
import DomainEvents.Proofs.Bus.Agreement
import DomainEvents.Proofs.Naming
import DomainEvents.Proofs.Kind.Coding
import DomainEvents.Proofs.Bus.Typed
import DomainEvents.Proofs.Bus.Replaying
import DomainEvents.Proofs.Store
import DomainEvents.Proofs.Bus.Stored
import DomainEvents.Proofs.Bus.Reloading
import DomainEvents.Proofs.Bus.Filling
import DomainEvents.Proofs.Store.Changes
import DomainEvents.Proofs.Kind.Expanding
import DomainEvents.Proofs.Kind.Spelling
import DomainEvents.Proofs.Causes
import DomainEvents.Proofs.Json.Formed
import DomainEvents.Proofs.Json.Compact
import DomainEvents.Proofs.Uuid
import DomainEvents.Proofs.Time.Text
import DomainEvents.Proofs.Event.Storing
import DomainEvents.Proofs.Subscriptions
import DomainEvents.Proofs.Bus.Receiving
import DomainEvents.Proofs.Bus.Carrying
import DomainEvents.Proofs.Contexts
import DomainEvents.Proofs.Probe
import DomainEvents.Proofs.Bus.Probing
import DomainEvents.Proofs.Bus.Building
import DomainEvents.Proofs.Metrics
