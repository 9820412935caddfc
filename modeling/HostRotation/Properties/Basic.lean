import HostRotation.Table

namespace HostRotation

abbrev Properties : Type :=
  Table String

end HostRotation
