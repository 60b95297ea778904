import Sirius.Fmrepair.Model
import Sirius.Fmrepair.Invariant
import Sirius.Fmrepair.Pending
import Sirius.Fmrepair.Joint
import Sirius.Fmrepair.Tracker
import Sirius.Fmrepair.Impulses
import Sirius.Fmrepair.Turn
import Sirius.Fmrepair.DelayLine
import Sirius.Fmrepair.Safety
import Sirius.Fmrepair.Schedule
import Sirius.Lib.ListHead
import Sirius.Lib.ListParts
import Sirius.Wcd9320.HwParams
import Sirius.Wcd9320.ChannelLists
import Sirius.Lib.Runs
import Sirius.Wcd9320.Controls
import Sirius.Wcd9320.SaveRestore
import Sirius.Wcd9320.Reinit
import Sirius.Wcd9320.Capture
import Sirius.Q6voice.Model
import Sirius.Q6voice.Steps
import Sirius.Q6voice.Calls
import Sirius.Q6voice.DefaultMode
import Sirius.Q6voice.PlaybackOnly
import Sirius.Q6voice.FailedStart
import Sirius.Q6voice.ParameterWrites
import Sirius.Q6voice.Dai
import Sirius.Lib.SharedSlots
import Sirius.Q6common.Model
import Sirius.Q6common.Refcount
import Sirius.Q6common.Pending
import Sirius.Q6common.Replies
import Sirius.Q6common.Handles
import Sirius.RadioFm.Model
import Sirius.RadioFm.Opens
import Sirius.RadioFm.Acks
import Sirius.Lib.Dict
import Sirius.Lib.Parts
import Sirius.Tools.DtLoad
import Sirius.Tools.DtEquiv
import Sirius.Tools.DtSound
import Sirius.Tools.DtComplete
import Sirius.Lib.InPlace
import Sirius.Tools.DtFormat
import Sirius.Tools.DtBlob
import Sirius.Touch.Model
import Sirius.Touch.Resume
import Sirius.Gpu.Carveout
import Sirius.Gpu.Reclaim
import Sirius.Gpu.Context
import Sirius.Cpufreq.Model
import Sirius.Cpufreq.Follow
import Sirius.Q6afe.Sysclk
import Sirius.Wcd9320.Streams
import Sirius.Wcd9320.Ports
import Sirius.Wcd9320.StreamConfig
import Sirius.Wcd9320.PlaybackRate
import Sirius.Lib.Semaphore
import Sirius.Lib.Ledger
import Sirius.Touch.Packets
import Sirius.Touch.Readers
import Sirius.Touch.Outstanding
import Sirius.Touch.ResetSem
import Sirius.Touch.Probe
import Sirius.Touch.Unwind
import Sirius.Touch.Command
import Sirius.Fmrepair.Interpolate
import Sirius.Fmrepair.Period
import Sirius.Fmrepair.Blind
import Sirius.Fmrepair.Anchors
import Sirius.Wcd9320.Decimators
import Sirius.Wcd9320.Micbias
import Sirius.Wcd9320.Clsh
import Sirius.Q6common.Instances
import Sirius.Sndcard.ChannelMap
import Sirius.Panel.Power
import Sirius.Lib.Scan
import Sirius.Panel.Detect
import Sirius.Lib.Dialog
import Sirius.Touch.Handshake
import Sirius.Touch.FwLoad
import Sirius.Touch.ReadReport
import Sirius.Touch.CommandStore
import Sirius.Touch.ReplyBuffer
import Sirius.Touch.Contact
import Sirius.Lib.Controls
import Sirius.Camera.Model
import Sirius.Camera.Exposure
import Sirius.Lib.SquareRoot
import Sirius.Touch.Sqrt
import Sirius.Lib.Stores
import Sirius.Q6voice.StackBytes
import Sirius.Tools.FotaCarve
import Sirius.Lib.PyText
import Sirius.Cpufreq.KraitOpp
import Sirius.Tools.FillSymvers
import Sirius.Tools.HarvestSymvers
import Sirius.Clk.PmicDiv
import Sirius.Lib.Framed
import Sirius.Tools.Pm4
import Sirius.Tools.Ascii85
import Sirius.Tools.Rds
import Sirius.Touch.Frames
import Sirius.Touch.Identity
import Sirius.RadioFm.Events
import Sirius.RadioFm.Session
import Sirius.Lib.Loops
import Sirius.Lib.Extent
import Sirius.Tools.Ppm
import Sirius.Tools.CompareFrames
import Sirius.Wcd9320.CaptureEvents
import Sirius.Wcd9320.Compander
import Sirius.Camera.BayerOrder
import Sirius.Camera.Life
