import XoDos.ActivityInput
import XoDos.AmSocketServer
import XoDos.BitmapFile
import XoDos.BufferMemory
import XoDos.Capacity
import XoDos.ClipboardProtocol
import XoDos.ClipboardText
import XoDos.ColorParse
import XoDos.ColorReset
import XoDos.ColorScheme
import XoDos.CommandState
import XoDos.DirPaths
import XoDos.DotEnvFile
import XoDos.DrawnStyles
import XoDos.ExtraKeys
import XoDos.FakeModifiers
import XoDos.JoystickInput
import XoDos.KeyEventSender
import XoDos.KeyValueSet
import XoDos.KeysymSearch
import XoDos.LocalServerSocket
import XoDos.MarkdownUtils
import XoDos.OscNumbers
import XoDos.Paste
import XoDos.PixmapAccess
import XoDos.PluginResults
import XoDos.Present
import XoDos.ProtectedCells
import XoDos.RangeScroller
import XoDos.RegistryCache
import XoDos.RegistryStore
import XoDos.RegistryTree
import XoDos.SavedCursor
import XoDos.SavedModes
import XoDos.SendText
import XoDos.SenderWakeups
import XoDos.ServerCursor
import XoDos.ServerInput
import XoDos.Session
import XoDos.ShellKill
import XoDos.SocketInputStream
import XoDos.SpaceUsed
import XoDos.SplitCommand
import XoDos.TapGestures
import XoDos.TerminalRenderer
import XoDos.TopRow
import XoDos.Touch
import XoDos.TouchInputHandler
import XoDos.Touchpad
import XoDos.TruncatedOutput
