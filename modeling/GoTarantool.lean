import GoTarantool.Stream
import GoTarantool.Frame
import GoTarantool.Net
import GoTarantool.Dial
import GoTarantool.DecNumber
import GoTarantool.Box.Decode
import GoTarantool.Connection.State
import GoTarantool.Connection.Step
import GoTarantool.Connection.Effects
import GoTarantool.Connection.Registry
import GoTarantool.Connection.Wiring
import GoTarantool.Connection.Placement
import GoTarantool.Connection.Close
import GoTarantool.Connection.Once
import GoTarantool.Connection.Order
import GoTarantool.Connection.Shutdown
import GoTarantool.Connection.Inbound
import GoTarantool.Connection.Progress
import GoTarantool.Connection.Lifecycle
