import TPadFire.Adb.Channels
import TPadFire.Adb.Client
import TPadFire.Adb.Connection
import TPadFire.Adb.Damage
import TPadFire.Adb.Delivery
import TPadFire.Adb.Driver
import TPadFire.Adb.Fairness
import TPadFire.Adb.File
import TPadFire.Adb.FileTable
import TPadFire.Adb.Greeting
import TPadFire.Adb.Handshake
import TPadFire.Adb.Notices
import TPadFire.Adb.Outcome
import TPadFire.Adb.Packet
import TPadFire.Adb.Reentry
import TPadFire.Adb.Session
import TPadFire.Adb.Station
import TPadFire.Adb.Sync
import TPadFire.Adb.Turns
import TPadFire.Adb.Wire
import TPadFire.Firmware.CallContract
import TPadFire.Firmware.Callback
import TPadFire.Firmware.ChannelTable
import TPadFire.Firmware.Device
import TPadFire.Firmware.Duty
import TPadFire.Firmware.Feed
import TPadFire.Firmware.Filling
import TPadFire.Firmware.Firings
import TPadFire.Firmware.Frequency
import TPadFire.Firmware.InterruptSafety
import TPadFire.Firmware.MagnitudeRace
import TPadFire.Firmware.Main
import TPadFire.Firmware.Player
import TPadFire.Firmware.PowerOn
import TPadFire.Firmware.Refused
import TPadFire.Firmware.Residue
import TPadFire.Firmware.Rig
import TPadFire.Firmware.Stack
import TPadFire.Firmware.Statements
import TPadFire.Firmware.SwapRace
import TPadFire.Firmware.Tasks
import TPadFire.Firmware.Watchdog
import TPadFire.Foundations.Approach
import TPadFire.Foundations.ByteBuffer
import TPadFire.Foundations.Convert
import TPadFire.Foundations.Interrupt
import TPadFire.Foundations.Lease
import TPadFire.Foundations.Lts
import TPadFire.Foundations.Memory
import TPadFire.Foundations.Monitor
import TPadFire.Foundations.RoundRobin
import TPadFire.Host.Connections
import TPadFire.Host.Forms
import TPadFire.Host.Journey
import TPadFire.Host.Merge
import TPadFire.Host.RoundTrip
import TPadFire.Host.Server
import TPadFire.Host.Split
import TPadFire.Host.Stream
import TPadFire.Host.Strength
import TPadFire.Host.TPad
import TPadFire.Views.ComboRing
import TPadFire.Views.Detent
import TPadFire.Views.Drag
import TPadFire.Views.Homing
import TPadFire.Views.Lookups
import TPadFire.Views.Pixels
import TPadFire.Views.Slider
import TPadFire.Views.SliderLevel
import TPadFire.Views.Texture
import TPadFire.Views.Tracker
