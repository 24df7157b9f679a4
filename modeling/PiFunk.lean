import PiFunk.CTypes
import PiFunk.Constants
import PiFunk.Library.Acknowledge
import PiFunk.Library.BinaryFloat
import PiFunk.Library.BitField
import PiFunk.Library.BitMatrix
import PiFunk.Library.CyclicPointer
import PiFunk.Library.Debounce
import PiFunk.Library.FileSystem
import PiFunk.Library.FullDuplex
import PiFunk.Library.KeyedList
import PiFunk.Library.LastWrite
import PiFunk.Library.LexicalScope
import PiFunk.Library.LinkedList
import PiFunk.Library.Loop
import PiFunk.Library.NestedLoop
import PiFunk.Library.Rounding
import PiFunk.Library.Schedule
import PiFunk.Library.Segments
import PiFunk.Library.SplitCount
import PiFunk.Library.SplitCounter
import PiFunk.Library.Stdio
import PiFunk.Library.Waveform
import PiFunk.Ask.SendByte
import PiFunk.Ask.SymbolRate
import PiFunk.Ask.Waveform
import PiFunk.Bcm2835.I2c
import PiFunk.Bcm2835.I2cBus
import PiFunk.Bcm2835.I2cOrder
import PiFunk.Bcm2835.I2cRead
import PiFunk.Bcm2835.I2cWrite
import PiFunk.Bcm2835.Peripheral
import PiFunk.Bcm2835.Spi
import PiFunk.Bcm2835.SpiBus
import PiFunk.Bcm2835.SpiExchange
import PiFunk.Bcm2835.SpiOrder
import PiFunk.Bcm2835.SystemTimer
import PiFunk.Clock.Control
import PiFunk.Delay
import PiFunk.Delay.Hard
import PiFunk.Display.Render
import PiFunk.Display.Terminal
import PiFunk.Files.Csvreader
import PiFunk.Files.Fileselect
import PiFunk.Fm.DelaySplit
import PiFunk.Fm.DividerTable
import PiFunk.Fm.Modulator
import PiFunk.Fm.Preemphasis
import PiFunk.Fm.Quantisation
import PiFunk.Fm.RealMemPage
import PiFunk.Fm.Ring
import PiFunk.Fm.Sample
import PiFunk.Fm.SampleClock
import PiFunk.Fm.TableIndex
import PiFunk.Fm.WavFile
import PiFunk.Getopt.Internal
import PiFunk.Getopt.Parse
import PiFunk.Getopt.Scan
import PiFunk.Getopt.Session
import PiFunk.Gpio.FunctionSelect
import PiFunk.Gpio.RegisterBits
import PiFunk.Menu.Assistant
import PiFunk.Menu.AssistantRuns
import PiFunk.Menu.Carriers
import PiFunk.Menu.ChannelSelection
import PiFunk.Menu.Channels
import PiFunk.Menu.Modselect
import PiFunk.Menu.Selectors
import PiFunk.Menu.State
import PiFunk.Menu.Volume
import PiFunk.Morse.Cw
import PiFunk.Options.CommandLine
import PiFunk.Options.Parameters
import PiFunk.Options.Tables
import PiFunk.RpiGpio.CGpio
import PiFunk.RpiGpio.Debouncing
import PiFunk.RpiGpio.EventGpio
import PiFunk.RpiGpio.EventLists
import PiFunk.RpiGpio.PinDirections
import PiFunk.RpiGpio.PinRuns
import PiFunk.RpiGpio.PwmThreads
import PiFunk.RpiGpio.PwmTimes
import PiFunk.RpiGpio.PyGpio
import PiFunk.RpiGpio.SoftPwm
import PiFunk.Sampling.Companding
import PiFunk.Transmit.BlockMapping
import PiFunk.Transmit.Operations
import PiFunk.Transmit.Signals
