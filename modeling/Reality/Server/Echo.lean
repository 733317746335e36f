import Reality.Kit.Buffers
import Reality.Server.KeyAgreement

/-!
# Whose session id a zero-dial ServerHello carries

`runL2Handshake` (server_amortize.go) answers one client with the ServerHello the
target sent to ANOTHER. It clones the cached template and patches the clone by raw
offsets: a fresh random, and the client's session id when that has the template's
length. The clone is then parsed, and `handshake` writes the key share through a
slice of it. Here the template and the clone are buffers by address, so that what
is patched and what is left alone can be told apart.
-/

namespace Reality

open Kit

section

variable {Priv Pub Encap : Type} (kc : KeyCrypto Priv Pub Encap) (room : Nat)

end

/-! ## The buffers -/

section

variable {Priv Pub Encap : Type} (kc : KeyCrypto Priv Pub Encap) (room : Nat)

variable {kc room}

end

/-! ## A session id of another length -/

end Reality
