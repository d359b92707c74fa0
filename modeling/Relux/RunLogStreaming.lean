import Mathlib.Data.List.TakeWhile
import Relux.RunLogPolling

/-! One output pushed at once, and the same output streamed in chunks. A line that has grown
too long is pushed before its end has come, so the stream may push it in several pieces. -/

namespace Relux

open TailLog

variable {held : List Char}

variable {u : Unicode} {s : StreamingRunLog} {captured : List CapturedLine}

end Relux
