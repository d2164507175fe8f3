import VRJuggler.Gadget.DeviceDocument
import VRJuggler.Gadget.KeyboardReplication
import VRJuggler.Gadget.LockStep
import VRJuggler.Gadget.Proxies
import VRJuggler.Gadget.DigitalProxy
import VRJuggler.Gadget.InputArea
import VRJuggler.Gadget.MouseLock
import VRJuggler.Gadget.KeyFrames
import VRJuggler.Gadget.InputLogger
import VRJuggler.Gadget.InputPlayback
import VRJuggler.Gadget.FlockRecords
import VRJuggler.Gadget.SerialRecords
import VRJuggler.Gadget.FrameUpdate
import VRJuggler.Cluster.ApplicationBarrier
import VRJuggler.Cluster.MalformedPackets
import VRJuggler.Cluster.FragmentingStream
import VRJuggler.Cluster.SharedData
import VRJuggler.Cluster.SharedDevices
import VRJuggler.Cluster.ClusterConfiguration
import VRJuggler.Cluster.RIMPlugin
import VRJuggler.Io.XmlState
import VRJuggler.Io.ReadStringEnds
import VRJuggler.Jccl.DependencyClosure
import VRJuggler.Jccl.IncludePrecedence
import VRJuggler.Jccl.StaleRequests
import VRJuggler.Jccl.LookupsEnd
import VRJuggler.Jccl.IncludeLoops
import VRJuggler.Jccl.Shutdown
import VRJuggler.Jccl.FullNames
import VRJuggler.Jccl.PointerDependencies
import VRJuggler.Sim.Delivery
import VRJuggler.Sim.Duplex
import VRJuggler.Sim.ClosedSockets
import VRJuggler.Sim.Listeners
import VRJuggler.Sim.Ports
import VRJuggler.Sim.PortChoice
import VRJuggler.Sim.LineTiming
import VRJuggler.Sim.TimeSteps
import VRJuggler.Sim.MessageData
import VRJuggler.Sim.GraphFile
import VRJuggler.Draw.FrameProtocol
import VRJuggler.Draw.PipeWindows
import VRJuggler.Draw.ContextData
import VRJuggler.Config.UndoHistory
import VRJuggler.Config.UnsavedChanges
import VRJuggler.Config.SubDefinitions
import VRJuggler.Config.FailedEdits
import VRJuggler.ConfigIo.SavedConfigurations
import VRJuggler.ConfigIo.SavedDefinitions
import VRJuggler.ConfigIo.ParsedElements
import VRJuggler.ConfigIo.EqualElements
import VRJuggler.Tweek.BeanLoading
import VRJuggler.Tweek.WizardCursor
import VRJuggler.Tweek.WizardClasses
import VRJuggler.Tweek.BeanSearch
import VRJuggler.Tweek.EnvironmentExpansion
import VRJuggler.Vpr.StatCollector
import VRJuggler.Vpr.LockHolders
import VRJuggler.Vpr.ProfileIterator
import VRJuggler.Vpr.ThreadPool
import VRJuggler.Vpr.Selector
import VRJuggler.Vrj.DisplayManager
import VRJuggler.Vrj.KernelInit
import VRJuggler.Vrj.ControlLoop
import VRJuggler.Base.UnorderedMap
import VRJuggler.Base.LinkedList
import VRJuggler.Snx.SoundImplementation
import VRJuggler.Snx.OpenAL
import VRJuggler.Snx.SourceParameters
import VRJuggler.Snx.ChangeApi
