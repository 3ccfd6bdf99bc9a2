import CppMyth.Builtin.Strdec
import CppMyth.Builtin.Time
import CppMyth.Proto.Accounting
import CppMyth.Proto.Connection
import CppMyth.Proto.Tokens
import CppMyth.Proto.Turns
import CppMyth.Socket.Stream
import CppMyth.Compressor.RoundTrip
import CppMyth.EventHandler.Delivery
import CppMyth.Http.Coded
import CppMyth.Http.Ending
import CppMyth.Http.Eol
import CppMyth.Http.Message
import CppMyth.Http.Target
import CppMyth.Http.UriParts
import CppMyth.Json.Binder
import CppMyth.Json.Defined
import CppMyth.Json.Escapes
import CppMyth.Json.Integers
import CppMyth.Playback.ReadBuffer
import CppMyth.LiveTV.Ahead
import CppMyth.Playback.Seek
import CppMyth.RingBuffer.Custody
import CppMyth.RingBuffer.Full
import CppMyth.Services.Paged
import CppMyth.SharedPtr
import CppMyth.Threads.MessageQueue
import CppMyth.Threads.Pool
import CppMyth.Threads.Safety
import CppMyth.Threads.Thread
