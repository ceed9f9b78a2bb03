import OneDriver.Prog
import OneDriver.Pool
import OneDriver.Rely
import OneDriver.Guarantee
import OneDriver.Amid
import OneDriver.Odometer
import OneDriver.Part
import OneDriver.Ledger
import OneDriver.CInt
import OneDriver.Bcd
import OneDriver.Memory
import OneDriver.Known
import OneDriver.Heap
import OneDriver.Links
import OneDriver.Ring
import OneDriver.UserCopy
import OneDriver.Pieces
import OneDriver.Pages
import OneDriver.History
import OneDriver.Trail
import OneDriver.Ending
import OneDriver.Lock
import OneDriver.Tokens
import OneDriver.Refinement
import OneDriver.Serial
import OneDriver.Mirror
import OneDriver.Adc.Device
import OneDriver.Adc.Fresh
import OneDriver.Adc.Asleep
import OneDriver.Adc.Text
import OneDriver.Adc.Module
import OneDriver.Completion.Device
import OneDriver.Completion.Fifo
import OneDriver.Completion.Indices
import OneDriver.Completion.Writers
import OneDriver.Completion.Wakeups
import OneDriver.Echo.Device
import OneDriver.Echo.Write
import OneDriver.Echo.Reading
import OneDriver.Echo.Progress
import OneDriver.Echo.Loader
import OneDriver.Fs.FilpOpen
import OneDriver.Ioremap.Device
import OneDriver.Ioremap.Mapping
import OneDriver.Ioremap.Runs
import OneDriver.Ioremap.Ram
import OneDriver.Keys.Device
import OneDriver.Keys.Read
import OneDriver.Keys.Undelivered
import OneDriver.Keys.Lines
import OneDriver.Keys.Sessions
import OneDriver.Keys.Display
import OneDriver.Led.Device
import OneDriver.Mmap.Device
import OneDriver.Mmap.Shared
import OneDriver.Pwm.Device
import OneDriver.Pwm.App
import OneDriver.Rtc.Regs
import OneDriver.Rtc.Alarm
import OneDriver.Rtc.Tick
import OneDriver.Rtc.Clock
import OneDriver.Rtc.Wake
import OneDriver.Rtc.Power
import OneDriver.Rtc.Running
import OneDriver.Rtc.Reading
import OneDriver.Rtc.Setting
import OneDriver.Rtc.Again
import OneDriver.Rtc.Decoders
import OneDriver.Rtc.Arming
import OneDriver.Rtc.Platform
import OneDriver.Rtc.Lifecycle
import OneDriver.Rtc.Sharing
import OneDriver.Rtc.UnitTest
import OneDriver.Scull.Cells
import OneDriver.Scull.Device
import OneDriver.Scull.Empty
import OneDriver.Scull.Division
import OneDriver.Scull.Chain
import OneDriver.Scull.Follow
import OneDriver.Scull.Trim
import OneDriver.Scull.Flat
import OneDriver.Scull.Address
import OneDriver.Scull.Transfer
import OneDriver.Scull.Calls
import OneDriver.Scull.Decompose
import OneDriver.Scull.Sections
import OneDriver.Scull.Away
import OneDriver.Scull.Race
import OneDriver.Scull.Ownership
import OneDriver.Scull.Contents
import OneDriver.Scull.Linear
import OneDriver.Scull.Effect
import OneDriver.Scull.Leak
import OneDriver.Scull.Module
import OneDriver.Sysfs.Version
import OneDriver.Watchdog.Timer
import OneDriver.Watchdog.Device
import OneDriver.Watchdog.Session
import OneDriver.Watchdog.Heartbeat
import OneDriver.Watchdog.Platform
import OneDriver.Watchdog.Binding
import OneDriver.Watchdog.Teardown
import OneDriver.Watchdog.Count
import OneDriver.Watchdog.Requests
import OneDriver.Watchdog.Race
import OneDriver.Watchdog.Faults
import OneDriver.Watchdog.Guard
