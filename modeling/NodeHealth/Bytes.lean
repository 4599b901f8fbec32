/-!
# Byte sequences

Everything that travels on a connection or lies in a file is a list of bytes, so that
statements about prefixes and concatenation are statements about lists.
-/

namespace NodeHealth

/-- A sequence of bytes, first byte first. -/
abbrev Bytes := List UInt8

end NodeHealth
